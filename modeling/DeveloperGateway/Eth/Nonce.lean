/-
# Nonces of the Ethereum client

Only the loop touches `c.nonce`: `runTransaction` allocates `nonce := c.nonce;
c.nonce++`, and on a retry `updateNonce` first raises the counter to the pending
nonce the backend reports. The allocations are therefore strictly increasing until the
`uint64` counter passes its last value, where `c.nonce++` wraps to `0`. Each
allocation starts one goroutine, which submits at most one transaction with that
nonce, in whatever order the goroutines run.
-/

import DeveloperGateway.Eth.Client

namespace DeveloperGateway.Eth

namespace EthClient

/-- The last value of the `uint64` counter, after which `c.nonce++` wraps to `0`. -/
def lastNonce : UInt64 := 18446744073709551615

/-- Below its last value, the counter's increment is the number's successor. -/
theorem toNat_add_one {n : UInt64} (h : n ≠ lastNonce) : (n + 1).toNat = n.toNat + 1 := by
  have below : n.toNat < 2 ^ 64 := n.toNat_lt
  have notLast : n.toNat ≠ 2 ^ 64 - 1 := fun last => h (UInt64.ext (by simpa [lastNonce] using last))
  rw [UInt64.toNat_add]
  exact Nat.mod_eq_of_lt (by simp only [UInt64.toNat_ofNat, UInt64.size]; omega)

/-- What a step does to the counter, the allocations, the transactions in flight and the
submissions: nothing, an allocation by the loop, or the completion of a goroutine. -/
theorem step_nonces {c c' : EthClient} {label : Label} (h : c.step label = some c') :
    (c'.nonce = c.nonce ∧ c'.allocated = c.allocated ∧ c'.inFlight = c.inFlight ∧
        c'.sent = c.sent) ∨
      (∃ req pendingNonceAt nonce, label = .request pendingNonceAt ∧ c.loop = .handling req ∧
        runTransaction c.nonce req pendingNonceAt = .allocated nonce ∧ c'.nonce = nonce + 1 ∧
        c'.allocated = c.allocated ++ [(req.out, nonce)] ∧
        c'.inFlight = c.inFlight ++ [⟨req, nonce⟩] ∧ c'.sent = c.sent) ∨
      (∃ flight answers, flight ∈ c.inFlight ∧ c'.nonce = c.nonce ∧
        c'.allocated = c.allocated ∧ c'.inFlight = c.inFlight.erase flight ∧
        c'.sent = c.sent ++ (flight.req.fn flight.nonce answers).1.toList) := by
  rcases (step_cases h).2 with ⟨-, rfl, -⟩ | ⟨_, _, -, -, -, rfl⟩ | ⟨_, _, -, -, rfl⟩ |
    ⟨_, _, -, -, -, -, rfl⟩ | ⟨_, _, -, -, -, rfl⟩ | ⟨-, -, rfl⟩ | ⟨_, _, _, -, -, -, rfl⟩ |
    ⟨req, pendingNonceAt, nonce, same, handling, allocated, rfl⟩ |
    ⟨flight, answers, -, flying, -, rfl⟩ | ⟨flight, answers, _, -, flying, -, rfl⟩ |
    ⟨_, -, -, -, -, rfl⟩ | ⟨-, -, rfl⟩ | ⟨-, rfl⟩
  all_goals first
    | exact .inl ⟨rfl, rfl, rfl, rfl⟩
    | exact .inr <| .inl ⟨req, pendingNonceAt, nonce, same, handling, allocated, rfl, rfl, rfl, rfl⟩
    | exact .inr <| .inr ⟨flight, answers, flying, rfl, rfl, rfl, rfl⟩

/-- The allocations so far are strictly increasing and all below the counter. -/
def NoncesOrdered (c : EthClient) : Prop :=
  (c.allocated.map Prod.snd).Pairwise (· < ·) ∧ ∀ p ∈ c.allocated, p.2 < c.nonce

/-- The counter has not passed its last value: `2^64 - 1` was never allocated. -/
def NeverWrapped (c : EthClient) : Prop :=
  ∀ p ∈ c.allocated, p.2 ≠ lastNonce

/-- An allocation keeps the allocations ordered as long as it is not the last value. -/
theorem NoncesOrdered.allocate {c : EthClient} {out : Nat} {nonce : UInt64}
    (ordered : NoncesOrdered c) (above : c.nonce ≤ nonce) (notLast : nonce ≠ lastNonce) :
    ((c.allocated ++ [(out, nonce)]).map Prod.snd).Pairwise (· < ·) ∧
      ∀ p ∈ c.allocated ++ [(out, nonce)], p.2 < nonce + 1 := by
  have successor : nonce < nonce + 1 := by
    rw [lt_iff_toNat_lt, toNat_add_one notLast]; omega
  have earlier : ∀ p ∈ c.allocated, p.2 < nonce := fun p mem => by
    have := ordered.2 p mem
    rw [lt_iff_toNat_lt] at this ⊢; rw [le_iff_toNat_le] at above; omega
  refine ⟨?_, fun p mem => ?_⟩
  · simp only [List.map_append, List.map_cons, List.map_nil, List.pairwise_append,
      List.pairwise_singleton, List.mem_singleton, List.mem_map, forall_eq]
    refine ⟨ordered.1, trivial, ?_⟩
    rintro _ ⟨p, mem, rfl⟩
    exact earlier p mem
  · rcases List.mem_append.1 mem with old | new
    · exact UInt64.lt_trans (earlier p old) successor
    · rw [List.mem_singleton.1 new]; exact successor

/-- Until the counter wraps, the loop allocates strictly increasing nonces, all below
`c.nonce`. -/
theorem noncesOrdered_of_reachable {c : EthClient} (reach : Reachable c) :
    NeverWrapped c → NoncesOrdered c := by
  refine Reachable.invariant (fun c => NeverWrapped c → NoncesOrdered c) ?_ ?_ reach
  · intro _; exact ⟨List.Pairwise.nil, fun _ mem => absurd mem (List.not_mem_nil _)⟩
  · intro c c' label _ ih moved never
    rcases step_nonces moved with ⟨nonce, allocated, -, -⟩ | ⟨req, _, n, -, -, chosen, nonce,
      allocated, -, -⟩ | ⟨_, _, -, nonce, allocated, -, -⟩
    · have ordered := ih fun p mem => never p (allocated ▸ mem)
      exact ⟨allocated ▸ ordered.1, by rw [nonce, allocated]; exact ordered.2⟩
    · have older : NeverWrapped c := fun p mem => never p (by simp [allocated, mem])
      have notLast : n ≠ lastNonce := never (req.out, n) (by simp [allocated])
      rw [NoncesOrdered, nonce, allocated]
      exact (ih older).allocate (runTransaction_allocated chosen).2.1 notLast
    · have ordered := ih fun p mem => never p (allocated ▸ mem)
      exact ⟨allocated ▸ ordered.1, by rw [nonce, allocated]; exact ordered.2⟩

/-- The nonces of the client. Until the counter wraps, the loop allocates them strictly
increasing; a retry is handed a nonce no lower than the pending nonce its `updateNonce`
read from the backend; `updateNonce` never lowers the counter, and when all 10 of its
calls fail, `runTransaction` answers without touching the counter or allocating. -/
theorem allocated_nonces_increase :
    (∀ c : EthClient, Reachable c → NeverWrapped c →
      (c.allocated.map Prod.snd).Pairwise (· < ·)) ∧
    (∀ (c c' : EthClient) (req : EthRequest) (pendingNonceAt : Nat → Option UInt64)
      (nonce : UInt64), c.loop = .handling req → 0 < req.attempts →
      c.step (.request pendingNonceAt) = some c' →
      c'.allocated = c.allocated ++ [(req.out, nonce)] →
      ∃ i < 10, (∀ j < i, pendingNonceAt j = none) ∧
        ∃ pending, pendingNonceAt i = some pending ∧ pending ≤ nonce) ∧
    (∀ (nonce updated : UInt64) (pendingNonceAt : Nat → Option UInt64),
      updateNonce nonce pendingNonceAt = .ok updated → nonce ≤ updated) ∧
    (∀ (c c' : EthClient) (req : EthRequest) (pendingNonceAt : Nat → Option UInt64),
      c.loop = .handling req → 0 < req.attempts → (∀ j < 10, pendingNonceAt j = none) →
      c.step (.request pendingNonceAt) = some c' →
      c'.nonce = c.nonce ∧ c'.allocated = c.allocated) := by
  refine ⟨fun c reach never => (noncesOrdered_of_reachable reach never).1, ?_,
    fun _ _ _ refreshed => (updateNonce_ok refreshed).1, ?_⟩
  · intro c c' req pendingNonceAt nonce handling retry moved allocation
    rcases step_request handling moved with ⟨_, -, rfl⟩ | ⟨n, chosen, rfl⟩
    · simp at allocation
    · simp only [List.append_cancel_left_eq, List.cons.injEq, Prod.mk.injEq, true_and,
        and_true] at allocation
      exact allocation ▸ (runTransaction_allocated chosen).2.2 retry
  · intro c c' req pendingNonceAt handling retry failing moved
    rcases step_request handling moved with ⟨_, -, rfl⟩ | ⟨n, chosen, rfl⟩
    · exact ⟨rfl, rfl⟩
    · obtain ⟨i, below, -, pending, found, -⟩ := (runTransaction_allocated chosen).2.2 retry
      simp [failing i below] at found

/-- A request of the tests' `ExecuteService` calls. -/
def executeCall : ExecuteServiceRequest :=
  ⟨"0x0000000000000000000000000000000000000000", "0x5d352cf2160f79CBF3554534cF25A4b42C43D502"⟩

/-- A backend that rejects the submission for its nonce. -/
def nonceTooLow : TxAnswers :=
  { estimateGas := .ok 0, signTx := .ok (), sendTransaction := .error "nonce too low",
    transactionReceipt := .error "not found" }

/-- A backend that reports the pending nonce `2^64 - 1` to a retry: the counter wraps
to `0`, and the next request is handed the nonce `0` a second time. -/
theorem allocated_nonce_repeats_after_wrap :
    ∃ c : EthClient, Reachable c ∧ ¬ (c.allocated.map Prod.snd).Nodup := by
  obtain ⟨c, reach, repeated⟩ := exists_reachable_of_run
    ([.executeService 1 executeCall, .receive, .request fun _ => none,
      .complete ⟨⟨0, 0, 1, .execute executeCall⟩, 0⟩ nonceTooLow,
      .requeue ⟨1, 0, 1, .execute executeCall⟩, .receive, .request fun _ => some lastNonce,
      .executeService 2 executeCall, .receive, .request fun _ => none])
    (fun c => !decide (c.allocated.map Prod.snd).Nodup) (by decide)
  exact ⟨c, reach, by simpa using repeated⟩

/-- Every submission and every transaction in flight holds its own allocation: as a
multiset, their nonces are among the nonces the loop allocated. -/
def Submitted (c : EthClient) : Prop :=
  (c.sent.map (·.nonce) ++ c.inFlight.map (·.nonce)).Subperm (c.allocated.map Prod.snd)

/-- A completed goroutine gives up its flight and submits at most one transaction, with
its own nonce. -/
theorem submitted_complete {sent : List Transaction} {inFlight : List Flight} {flight : Flight}
    {answers : TxAnswers} (flying : flight ∈ inFlight) :
    ((sent ++ (flight.req.fn flight.nonce answers).1.toList).map (·.nonce) ++
        (inFlight.erase flight).map (·.nonce)).Subperm
      (sent.map (·.nonce) ++ inFlight.map (·.nonce)) := by
  have rest : (inFlight.map (·.nonce)).Perm
      (flight.nonce :: (inFlight.erase flight).map (·.nonce)) :=
    (List.perm_cons_erase flying).map _
  refine List.Subperm.trans ?_ (List.Perm.append_left _ rest.symm).subperm
  cases submitted : (flight.req.fn flight.nonce answers).1 with
  | none =>
    simpa using (List.subperm_append_left _).2 (List.sublist_cons_self flight.nonce _).subperm
  | some tx =>
    simpa [EthRequest.fn_sent_nonce submitted] using List.Subperm.refl _

/-- Submissions and flights never outnumber allocations, whatever the interleaving. -/
theorem submitted_of_reachable {c : EthClient} (reach : Reachable c) : Submitted c := by
  refine Reachable.invariant Submitted (by simp [Submitted, dial]) ?_ reach
  intro c c' label _ ih moved
  rcases step_nonces moved with ⟨-, allocated, inFlight, sent⟩ | ⟨req, _, n, -, -, -, -,
    allocated, inFlight, sent⟩ | ⟨flight, answers, flying, -, allocated, inFlight, sent⟩
  · rwa [Submitted, allocated, inFlight, sent]
  · rw [Submitted, allocated, inFlight, sent]
    simpa using (List.subperm_append_right [n]).2 ih
  · rw [Submitted, allocated, inFlight, sent]
    exact (submitted_complete flying).trans ih

/-- Until the counter wraps, it is at least the number of allocations. -/
theorem allocated_length_le_nonce {c : EthClient} (reach : Reachable c) :
    NeverWrapped c → c.allocated.length ≤ c.nonce.toNat := by
  refine Reachable.invariant (fun c => NeverWrapped c → c.allocated.length ≤ c.nonce.toNat)
    (fun _ => by simp [dial]) ?_ reach
  intro c c' label _ ih moved never
  rcases step_nonces moved with ⟨nonce, allocated, -, -⟩ | ⟨req, _, n, -, -, chosen, nonce,
    allocated, -, -⟩ | ⟨_, _, -, nonce, allocated, -, -⟩
  · rw [nonce, allocated]; exact ih fun p mem => never p (allocated ▸ mem)
  · have older : NeverWrapped c := fun p mem => never p (by simp [allocated, mem])
    have notLast : n ≠ lastNonce := never (req.out, n) (by simp [allocated])
    have above := (runTransaction_allocated chosen).2.1
    rw [le_iff_toNat_le] at above
    rw [nonce, allocated, List.length_append, toNat_add_one notLast]
    have := ih older
    simp only [List.length_singleton]
    omega
  · rw [nonce, allocated]; exact ih fun p mem => never p (allocated ▸ mem)

/-- Allocated nonces are consumed whatever `fn` does with them: transactions submitted
and in flight never outnumber the allocations, which, until the counter wraps, never
outnumber `c.nonce`. -/
theorem allocations_bound_submissions :
    ∀ c : EthClient, Reachable c →
      c.sent.length + c.inFlight.length ≤ c.allocated.length ∧
        (NeverWrapped c → c.allocated.length ≤ c.nonce.toNat) := by
  intro c reach
  refine ⟨?_, allocated_length_le_nonce reach⟩
  simpa using (submitted_of_reachable reach).length_le

/-- The bound after a request whose gas estimation fails: its nonce `0` stays allocated
with nothing submitted or in flight, and the counter is at `1`. -/
theorem allocations_bound_submissions_after_gap :
    ∃ c : EthClient, Reachable c ∧ c.allocated = [(0, 0)] ∧ c.sent = [] ∧ c.nonce = 1 ∧
      NeverWrapped c ∧ c.sent.length + c.inFlight.length ≤ c.allocated.length ∧
        c.allocated.length ≤ c.nonce.toNat := by
  obtain ⟨c, reach, gap⟩ := exists_reachable_of_run
    ([.executeService 1 executeCall, .receive, .request fun _ => none,
      .complete ⟨⟨0, 0, 1, .execute executeCall⟩, 0⟩
        { nonceTooLow with estimateGas := .error "gas required exceeds allowance" }])
    (fun c => decide (c.allocated = [(0, 0)] ∧ c.sent = [] ∧ c.nonce = 1)) (by decide)
  simp only [decide_eq_true_eq] at gap
  obtain ⟨allocated, sent, nonce⟩ := gap
  have never : NeverWrapped c := by simp [NeverWrapped, allocated, lastNonce]
  obtain ⟨bounded, counted⟩ := allocations_bound_submissions c reach
  exact ⟨c, reach, allocated, sent, nonce, never, bounded, counted never⟩

/-- One request whose gas estimation fails: its nonce stays allocated, so with nothing in
flight and nothing ever submitted, the counter is `1` while the backend's pending nonce
is still the initial `0`. -/
theorem nonce_gap_after_estimate_failure :
    ∃ c : EthClient, Reachable c ∧ c.inFlight = [] ∧ c.retrying = [] ∧ c.inCh = [] ∧
      c.sent = [] ∧ c.nonce = 1 := by
  obtain ⟨c, reach, gap⟩ := exists_reachable_of_run
    ([.executeService 1 executeCall, .receive, .request fun _ => none,
      .complete ⟨⟨0, 0, 1, .execute executeCall⟩, 0⟩
        { nonceTooLow with estimateGas := .error "gas required exceeds allowance" }])
    (fun c => decide (c.inFlight = [] ∧ c.retrying = [] ∧ c.inCh = [] ∧ c.sent = [] ∧
      c.nonce = 1)) (by decide)
  exact ⟨c, reach, by simpa using gap⟩

/-- Every transaction handed to `SendTransaction` carries a nonce the loop allocated, and
no allocation is submitted twice; until the counter wraps the submitted nonces are
pairwise distinct. -/
theorem submissions_use_allocated_nonces :
    ∀ c : EthClient, Reachable c →
      (c.sent.map (·.nonce)).Subperm (c.allocated.map Prod.snd) ∧
        (NeverWrapped c → (c.sent.map (·.nonce)).Nodup) := by
  intro c reach
  have sent := (List.sublist_append_left _ _).subperm.trans (submitted_of_reachable reach)
  refine ⟨sent, fun never => ?_⟩
  obtain ⟨l, perm, sub⟩ := sent
  exact perm.nodup_iff.1 (((noncesOrdered_of_reachable reach never).1.imp UInt64.ne_of_lt).sublist sub)

/-- The submissions of two requests in flight together, the later one first: nonces `1`
and then `0`, both allocated and distinct. -/
theorem submissions_use_allocated_nonces_out_of_order :
    ∃ c : EthClient, Reachable c ∧ c.sent.map (·.nonce) = [1, 0] ∧ NeverWrapped c ∧
      (c.sent.map (·.nonce)).Subperm (c.allocated.map Prod.snd) ∧
        (c.sent.map (·.nonce)).Nodup := by
  obtain ⟨c, reach, order⟩ := exists_reachable_of_run
    ([.executeService 1 executeCall, .executeService 2 executeCall, .receive,
      .request fun _ => none, .receive, .request fun _ => none,
      .complete ⟨⟨0, 1, 2, .execute executeCall⟩, 1⟩ nonceTooLow,
      .complete ⟨⟨0, 0, 1, .execute executeCall⟩, 0⟩ nonceTooLow])
    (fun c => decide (c.sent.map (·.nonce) = [1, 0] ∧ ∀ p ∈ c.allocated, p.2 ≠ lastNonce))
    (by decide)
  simp only [decide_eq_true_eq] at order
  obtain ⟨sent, never⟩ := order
  obtain ⟨allocated, distinct⟩ := submissions_use_allocated_nonces c reach
  exact ⟨c, reach, sent, never, allocated, distinct never⟩

/-- Two requests in flight together: the later one, with nonce `1`, is submitted first. -/
theorem submissions_out_of_nonce_order :
    ∃ c : EthClient, Reachable c ∧ c.sent.map (·.nonce) = [1, 0] := by
  obtain ⟨c, reach, order⟩ := exists_reachable_of_run
    ([.executeService 1 executeCall, .executeService 2 executeCall, .receive,
      .request fun _ => none, .receive, .request fun _ => none,
      .complete ⟨⟨0, 1, 2, .execute executeCall⟩, 1⟩ nonceTooLow,
      .complete ⟨⟨0, 0, 1, .execute executeCall⟩, 0⟩ nonceTooLow])
    (fun c => decide (c.sent.map (·.nonce) = [1, 0])) (by decide)
  exact ⟨c, reach, by simpa using order⟩

end EthClient

end DeveloperGateway.Eth
