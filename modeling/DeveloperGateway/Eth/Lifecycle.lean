/-
# The lifecycle of a request

A request made by `DeployService` or `ExecuteService` moves between four holders: the
buffer of `inCh`, the loop, its own goroutine while `fn` runs, and the goroutine that
sends it back for a retry. It leaves them once, with the single event its reply channel
carries. `Lifecycle` says so of every reachable state: the reply channels found in the
holders and in the replies are the calls made so far, each once, and every request and
every reply carries the id of its call.
-/

import Mathlib.Data.List.Nodup
import DeveloperGateway.Eth.Nonce

namespace DeveloperGateway.Eth

/-- The request the loop holds, if any. -/
def Loop.held : Loop → List EthRequest
  | .handling req => [req]
  | _ => []

namespace EthClient

/-- Every request the client holds: buffered, with the loop, in flight, or retrying. -/
def holders (c : EthClient) : List EthRequest :=
  c.inCh ++ c.loop.held ++ c.inFlight.map (·.req) ++ c.retrying

/-- The reply channel and id of every request held and of every reply sent. -/
def keys (c : EthClient) : List (Nat × UInt64) :=
  c.holders.map (fun req => (req.out, req.id)) ++
    c.replies.map (fun reply => (reply.1, reply.2.id))

/-- Each call stands in exactly one place, with its id: gathered from the holders and the
replies, the reply channels and ids are those of the calls, each once. -/
def Lifecycle (c : EthClient) : Prop :=
  c.keys.Perm c.calls.enum

/-- Erasing a member takes one occurrence of its image out of a mapped list. -/
theorem count_map_erase {α β : Type} [DecidableEq α] [DecidableEq β] {l : List α} {a : α}
    (f : α → β) (mem : a ∈ l) (b : β) :
    (l.map f).count b = (f a :: (l.erase a).map f).count b :=
  ((List.perm_cons_erase mem).map f).count_eq b

/-- A call made whose key joins the holders or the replies keeps every call in exactly one
place. -/
theorem Lifecycle.call {c c' : EthClient} (life : Lifecycle c) {id : UInt64}
    (calls : c'.calls = c.calls ++ [id])
    (joined : c'.keys.Perm (c.keys ++ [(c.calls.length, id)])) : Lifecycle c' := by
  unfold Lifecycle
  rw [calls, List.enum_append, List.enumFrom_singleton]
  exact joined.trans ((List.perm_append_right_iff _).2 life)

/-- A step keeps every call in exactly one place, with its id. -/
theorem Lifecycle.step {c c' : EthClient} {label : Label} (life : Lifecycle c)
    (h : c.step label = some c') : Lifecycle c' := by
  rcases (step_cases h).2 with ⟨-, rfl, -⟩ | ⟨id, req, -, -, -, rfl⟩ | ⟨id, req, -, -, rfl⟩ |
    ⟨id, req, -, -, -, -, rfl⟩ | ⟨req, rest, -, selecting, queued, rfl⟩ | ⟨-, selecting, rfl⟩ |
    ⟨req, _, event, -, handling, answered, rfl⟩ | ⟨req, _, nonce, -, handling, -, rfl⟩ |
    ⟨flight, answers, -, flying, -, rfl⟩ | ⟨flight, answers, event, -, flying, answered, rfl⟩ |
    ⟨req, -, retrying, -, -, rfl⟩ | ⟨-, -, rfl⟩ | ⟨-, rfl⟩
  · exact life
  · refine life.call rfl (List.perm_iff_count.2 fun k => ?_)
    simp only [keys, holders, List.map_append, List.count_append, List.map_cons, List.map_nil]
    omega
  · refine life.call rfl (List.perm_iff_count.2 fun k => ?_)
    simp only [keys, holders, List.map_append, List.count_append, List.map_cons, List.map_nil,
      Event.id]
    omega
  · refine life.call rfl (List.perm_iff_count.2 fun k => ?_)
    simp only [keys, holders, List.map_append, List.count_append, List.map_cons, List.map_nil]
    omega
  · refine List.Perm.trans (List.perm_iff_count.2 fun k => ?_) life
    simp only [keys, holders, queued, selecting, Loop.held, List.map_append, List.count_append,
      List.map_cons, List.map_nil, List.count_cons, List.count_nil]
    omega
  · refine List.Perm.trans (List.perm_iff_count.2 fun k => ?_) life
    simp [keys, holders, selecting, Loop.held]
  · have sameId : event.id = req.id := by
      rcases runTransaction_answered answered with ⟨-, rfl⟩ | ⟨-, -, -, rfl⟩ <;> rfl
    refine List.Perm.trans (List.perm_iff_count.2 fun k => ?_) life
    simp only [keys, holders, handling, Loop.held, List.map_append, List.count_append,
      List.map_cons, List.map_nil, List.count_cons, List.count_nil, sameId]
    omega
  · refine List.Perm.trans (List.perm_iff_count.2 fun k => ?_) life
    simp only [keys, holders, handling, Loop.held, List.map_append, List.count_append,
      List.map_cons, List.map_nil, List.count_cons, List.count_nil, List.map_map]
    simp only [Function.comp_def]
    omega
  · have erased := count_map_erase (fun f : Flight => (f.req.out, f.req.id)) flying
    refine List.Perm.trans (List.perm_iff_count.2 fun k => ?_) life
    simp only [keys, holders, List.map_append, List.count_append, List.map_cons,
      List.map_nil, List.count_cons, List.count_nil, List.map_map, Function.comp_def,
      erased k]
    omega
  · have sameId : event.id = flight.req.id :=
      completeTransaction_id answered fun _ ran => EthRequest.fn_id ran
    have erased := count_map_erase (fun f : Flight => (f.req.out, f.req.id)) flying
    refine List.Perm.trans (List.perm_iff_count.2 fun k => ?_) life
    simp only [keys, holders, List.map_append, List.count_append, List.map_cons,
      List.map_nil, List.count_cons, List.count_nil, List.map_map, Function.comp_def,
      erased k, sameId]
    omega
  · have erased := count_map_erase (fun r : EthRequest => (r.out, r.id)) retrying
    refine List.Perm.trans (List.perm_iff_count.2 fun k => ?_) life
    simp only [keys, holders, List.map_append, List.count_append, List.map_cons,
      List.map_nil, List.count_cons, List.count_nil, erased k]
    omega
  · exact life
  · exact life

/-- Every reachable state keeps every call in exactly one place, with its id. -/
theorem lifecycle_of_reachable {c : EthClient} (reach : Reachable c) : Lifecycle c :=
  Reachable.invariant Lifecycle (by simp [Lifecycle, keys, holders, dial, Loop.held])
    (fun _ _ life moved => life.step moved) reach

/-- Where a request stands: the states of its lifecycle. -/
inductive Stage
  /-- Buffered in `inCh`. -/
  | queued
  /-- Received by the loop, which runs `request` on it. -/
  | handled
  /-- With the goroutine that runs `fn`. -/
  | inFlight
  /-- With the goroutine that sends it back on `inCh`. -/
  | retrying
  /-- Answered with `event` on its reply channel. -/
  | answered (event : Event)
  deriving DecidableEq, Repr

/-- Every stage call `out` stands in, once per occurrence. -/
def stagesOf (c : EthClient) (out : Nat) : List Stage :=
  (c.inCh.filter (·.out == out)).map (fun _ => .queued) ++
    (c.loop.held.filter (·.out == out)).map (fun _ => .handled) ++
    ((c.inFlight.map (·.req)).filter (·.out == out)).map (fun _ => .inFlight) ++
    (c.retrying.filter (·.out == out)).map (fun _ => .retrying) ++
    (c.replies.filter (·.1 == out)).map (fun reply => .answered reply.2)

/-- A call's stages are the keys found for its reply channel. -/
theorem length_stagesOf (c : EthClient) (out : Nat) :
    (c.stagesOf out).length = c.keys.countP (·.1 == out) := by
  simp only [stagesOf, keys, holders, List.length_append, List.length_map,
    List.countP_append, List.map_append, ← List.countP_eq_length_filter, List.countP_map,
    Function.comp_def]

/-- An answer among a call's stages is one of the replies to it. -/
theorem mem_replies_of_answered {c : EthClient} {out : Nat} {event : Event}
    (mem : Stage.answered event ∈ c.stagesOf out) : (out, event) ∈ c.replies := by
  simp only [stagesOf, List.mem_append, List.mem_map, List.mem_filter, beq_iff_eq] at mem
  rcases mem with (((⟨_, _, ⟨⟩⟩ | ⟨_, _, ⟨⟩⟩) | ⟨_, _, ⟨⟩⟩) | ⟨_, _, ⟨⟩⟩) |
    ⟨⟨o, e⟩, ⟨mem, rfl⟩, same⟩
  cases same
  exact mem

/-- Every call made by `DeployService` or `ExecuteService`, in every reachable state,
stands in exactly one stage of its lifecycle: queued, handled by the loop, in flight,
retrying, or answered; so it is answered at most once, never while it is sent back for a
retry, and its answer carries the id the call was made with. -/
theorem request_in_one_stage :
    ∀ c : EthClient, Reachable c → ∀ out < c.calls.length,
      ∃ stage, c.stagesOf out = [stage] ∧
        ∀ event, stage = .answered event → c.calls[out]? = some event.id := by
  intro c reach out made
  have life := lifecycle_of_reachable reach
  have once : (c.stagesOf out).length = 1 := by
    rw [length_stagesOf, life.countP_eq, ← Function.comp_def (· == out) Prod.fst,
      ← List.countP_map, List.enum_map_fst, ← List.count_eq_countP]
    exact List.count_eq_one_of_mem (List.nodup_range _) (List.mem_range.2 made)
  obtain ⟨stage, only⟩ := List.length_eq_one.1 once
  refine ⟨stage, only, fun event answered => ?_⟩
  have replied : (out, event) ∈ c.replies := mem_replies_of_answered (by
    rw [only, answered]; exact List.mem_singleton_self _)
  exact List.mem_enum_iff_getElem?.1 (life.subset (List.mem_append_right _
    (List.mem_map_of_mem (fun reply => (reply.1, reply.2.id)) replied)))

/-- The client after one `ExecuteService` call, queued on `inCh`. -/
theorem request_in_one_stage_after_call :
    Reachable { dial with calls := [1], inCh := [⟨0, 0, 1, .execute executeCall⟩] } ∧
      0 < [1].length ∧
      ∃ stage, ({ dial with calls := [1], inCh := [⟨0, 0, 1, .execute executeCall⟩] } :
          EthClient).stagesOf 0 = [stage] ∧
        ∀ event, stage = .answered event → [(1 : UInt64)][0]? = some event.id := by
  have reach : Reachable { dial with calls := [1], inCh := [⟨0, 0, 1, .execute executeCall⟩] } :=
    .step (.executeService 1 executeCall) .dial rfl
  exact ⟨reach, by decide, request_in_one_stage _ reach 0 (by decide)⟩

/-- A call's reply channel stands at most once among the holders and the replies. -/
theorem Lifecycle.count_le_one {c : EthClient} (life : Lifecycle c) (out : Nat) :
    (c.holders.map (·.out)).count out + (c.replies.map (·.1)).count out ≤ 1 := by
  have located := (life.map Prod.fst).count_eq out
  rw [List.enum_map_fst] at located
  simp only [keys, List.map_append, List.map_map, Function.comp_def, List.count_append]
    at located
  rw [located]
  exact List.nodup_iff_count_le_one.1 (List.nodup_range _) out

/-- The request of a call is held only for a call that was made. -/
theorem Lifecycle.out_lt {c : EthClient} (life : Lifecycle c) {req : EthRequest}
    (held : req ∈ c.holders) : req.out < c.calls.length := by
  have made := life.subset (List.mem_append_left _ (List.mem_map_of_mem
    (fun req : EthRequest => (req.out, req.id)) held))
  exact (List.getElem?_eq_some_iff.1 (List.mem_enum_iff_getElem?.1 made)).1

/-- A list in which `out` does not occur holds nothing of that call. -/
theorem ne_of_count_eq_zero {α : Type} {l : List α} (f : α → Nat) (out : Nat)
    (zero : (l.map f).count out = 0) {a : α} (mem : a ∈ l) : f a ≠ out :=
  fun same => List.count_eq_zero.1 zero (same ▸ List.mem_map_of_mem f mem)

/-- The loop's request is the only place its call stands, and its call was made. -/
theorem Lifecycle.alone_of_handling {c : EthClient} (life : Lifecycle c) {req : EthRequest}
    (handling : c.loop = .handling req) :
    (∀ r ∈ c.inCh ++ c.retrying, req.out ≠ r.out) ∧ (∀ f ∈ c.inFlight, req.out ≠ f.req.out) ∧
      (∀ reply ∈ c.replies, req.out ≠ reply.1) ∧ req.out < c.calls.length := by
  have unique := life.count_le_one req.out
  simp only [holders, handling, Loop.held, List.map_append, List.count_append, List.map_cons,
    List.map_nil, List.count_cons, List.count_nil, beq_self_eq_true, if_true, List.map_map,
    Function.comp_def] at unique
  refine ⟨fun r mem => ?_, fun f mem => ?_, fun reply mem => ?_,
    life.out_lt (by simp [holders, handling, Loop.held])⟩
  · refine (ne_of_count_eq_zero (·.out) req.out ?_ mem).symm
    simp only [List.map_append, List.count_append]
    omega
  · exact (ne_of_count_eq_zero (fun f : Flight => f.req.out) req.out (by omega) mem).symm
  · exact (ne_of_count_eq_zero (·.1) req.out (by omega) mem).symm

/-- A request in flight is the only place its call stands, and its call was made. -/
theorem Lifecycle.alone_of_flying {c : EthClient} (life : Lifecycle c) {flight : Flight}
    (flying : flight ∈ c.inFlight) :
    (∀ r ∈ c.inCh ++ c.loop.held ++ c.retrying, flight.req.out ≠ r.out) ∧
      (∀ f ∈ c.inFlight.erase flight, flight.req.out ≠ f.req.out) ∧
      (∀ reply ∈ c.replies, flight.req.out ≠ reply.1) ∧ flight.req.out < c.calls.length := by
  have unique := life.count_le_one flight.req.out
  have erased := count_map_erase (fun f : Flight => f.req.out) flying flight.req.out
  simp only [holders, List.map_append, List.count_append, List.map_map, Function.comp_def,
    erased, List.count_cons, beq_self_eq_true, if_true] at unique
  refine ⟨fun r mem => ?_, fun f mem => ?_, fun reply mem => ?_,
    life.out_lt (List.mem_append.2 (.inl (List.mem_append_right _
      (List.mem_map_of_mem (·.req) flying))))⟩
  · refine (ne_of_count_eq_zero (·.out) flight.req.out ?_ mem).symm
    simp only [List.map_append, List.count_append]
    omega
  · exact (ne_of_count_eq_zero (fun f : Flight => f.req.out) flight.req.out (by omega) mem).symm
  · exact (ne_of_count_eq_zero (·.1) flight.req.out (by omega) mem).symm

/-- The runs of `runTransaction` on a call's request. -/
def runs (c : EthClient) (out : Nat) : Nat := c.handled.count out

/-- The transactions built and signed for a call: one per allocated nonce. -/
def fnCalls (c : EthClient) (out : Nat) : Nat := (c.allocated.map Prod.fst).count out

/-- The times a call's request was sent back for a retry. -/
def retries (c : EthClient) (out : Nat) : Nat := c.retried.count out

/-- What a call's counts are, by where its request stands. Waiting, it has been run,
handed to `fn` and sent back as often as its attempts say; in flight, once more run and
handed to `fn`; answered, it was handed to `fn` at most 10 times and run at most once more,
and an answer after 11 runs is the loop's "failed to execute service". -/
structure Counted (c : EthClient) : Prop where
  waiting : ∀ req ∈ c.inCh ++ c.loop.held ++ c.retrying,
    c.runs req.out = req.attempts ∧ c.fnCalls req.out = req.attempts ∧
      c.retries req.out = req.attempts ∧ req.attempts ≤ 10
  flying : ∀ flight ∈ c.inFlight,
    c.runs flight.req.out = flight.req.attempts + 1 ∧
      c.fnCalls flight.req.out = flight.req.attempts + 1 ∧
      c.retries flight.req.out = flight.req.attempts ∧ flight.req.attempts < 10
  answered : ∀ reply ∈ c.replies,
    c.fnCalls reply.1 ≤ 10 ∧ c.runs reply.1 ≤ c.fnCalls reply.1 + 1 ∧
      c.retries reply.1 ≤ 10 ∧
      (c.runs reply.1 = 11 →
        reply.2 = .serviceErrorEvent reply.2.id (.ofDescription "failed to execute service"))
  fresh : ∀ out, c.calls.length ≤ out →
    c.runs out = 0 ∧ c.fnCalls out = 0 ∧ c.retries out = 0

/-- A call made and queued on `inCh` with no attempts keeps the counts in line. -/
theorem Counted.enqueue {c : EthClient} (counted : Counted c) (id : UInt64) {req : EthRequest}
    (made : req.out = c.calls.length) (first : req.attempts = 0) :
    Counted { c with calls := c.calls ++ [id], inCh := c.inCh ++ [req] } := by
  refine ⟨fun r mem => ?_, counted.flying, counted.answered,
    fun o later => counted.fresh o (by simp at later; omega)⟩
  simp only [List.mem_append, List.mem_singleton] at mem
  rcases mem with ((old | rfl) | held) | retry
  · exact counted.waiting r (by simp [old])
  · have := counted.fresh _ made.ge
    rw [first]
    exact ⟨this.1, this.2.1, this.2.2, Nat.zero_le 10⟩
  · exact counted.waiting r (by simp [held])
  · exact counted.waiting r (by simp [retry])

/-- A step keeps the counts of every call in line with where its request stands. -/
theorem Counted.step {c c' : EthClient} {label : Label} (counted : Counted c)
    (life : Lifecycle c) (h : c.step label = some c') : Counted c' := by
  rcases (step_cases h).2 with ⟨-, rfl, -⟩ | ⟨id, req, -, -, -, rfl⟩ | ⟨id, req, -, -, rfl⟩ |
    ⟨id, req, -, -, -, -, rfl⟩ | ⟨req, rest, -, selecting, queued, rfl⟩ | ⟨-, selecting, rfl⟩ |
    ⟨req, _, event, -, handling, answered, rfl⟩ | ⟨req, _, nonce, -, handling, chosen, rfl⟩ |
    ⟨flight, answers, -, flying, retry, rfl⟩ | ⟨flight, answers, event, -, flying, answered, rfl⟩ |
    ⟨req, -, retrying, -, -, rfl⟩ | ⟨-, -, rfl⟩ | ⟨-, rfl⟩
  · exact ⟨counted.waiting, counted.flying, counted.answered, counted.fresh⟩
  · exact counted.enqueue id rfl rfl
  · refine ⟨counted.waiting, counted.flying, fun reply mem => ?_,
      fun o later => counted.fresh o (by simp at later; omega)⟩
    simp only [List.mem_append, List.mem_singleton] at mem
    rcases mem with old | rfl
    · exact counted.answered reply old
    · have := counted.fresh _ le_rfl
      simp only [runs, fnCalls, retries] at this ⊢
      exact ⟨by omega, by omega, by omega, fun eleven => by omega⟩
  · exact counted.enqueue id rfl rfl
  · refine ⟨fun r mem => counted.waiting r ?_, counted.flying, counted.answered, counted.fresh⟩
    simp only [queued, selecting, Loop.held, List.mem_append, List.mem_cons, List.mem_singleton,
      List.not_mem_nil, or_false] at mem ⊢
    rcases mem with (old | rfl) | retry
    exacts [.inl (.inr old), .inl (.inl rfl), .inr retry]
  · refine ⟨fun r mem => counted.waiting r ?_, counted.flying, counted.answered, counted.fresh⟩
    simpa [selecting, Loop.held] using mem
  · obtain ⟨waiting, flights, replied, made⟩ := life.alone_of_handling handling
    have before := counted.waiting req (by simp [handling, Loop.held])
    refine ⟨fun r mem => ?_, fun f mem => ?_, fun reply mem => ?_, fun o later => ?_⟩
    · simp only [Loop.held, List.append_nil] at mem
      simpa [runs, fnCalls, retries, List.count_singleton', waiting r mem] using
        counted.waiting r (((List.sublist_append_left _ _).append_right _).subset mem)
    · simpa [runs, fnCalls, retries, List.count_singleton', flights f mem] using
        counted.flying f mem
    · simp only [List.mem_append, List.mem_singleton] at mem
      rcases mem with old | rfl
      · simpa [runs, fnCalls, retries, List.count_singleton', replied reply old] using
          counted.answered reply old
      · simp only [runs, fnCalls, retries, List.count_append, List.count_singleton_self] at before ⊢
        rcases runTransaction_answered answered with ⟨exhausted, rfl⟩ | ⟨-, below, -, rfl⟩
        · exact ⟨by omega, by omega, by omega, fun _ => rfl⟩
        · exact ⟨by omega, by omega, by omega, fun eleven => by omega⟩
    · dsimp only at later
      simpa [runs, fnCalls, retries, List.count_singleton', show req.out ≠ o by omega] using
        counted.fresh o later
  · obtain ⟨waiting, flights, replied, made⟩ := life.alone_of_handling handling
    have before := counted.waiting req (by simp [handling, Loop.held])
    have below := (runTransaction_allocated chosen).1
    refine ⟨fun r mem => ?_, fun f mem => ?_, fun reply mem => ?_, fun o later => ?_⟩
    · simp only [Loop.held, List.append_nil] at mem
      simpa [runs, fnCalls, retries, List.count_singleton', waiting r mem] using
        counted.waiting r (((List.sublist_append_left _ _).append_right _).subset mem)
    · simp only [List.mem_append, List.mem_singleton] at mem
      rcases mem with old | rfl
      · simpa [runs, fnCalls, retries, List.count_singleton', flights f old] using
          counted.flying f old
      · simp only [runs, fnCalls, retries, List.count_append, List.count_singleton_self,
          List.map_append, List.map_cons, List.map_nil] at before ⊢
        exact ⟨by omega, by omega, by omega, below⟩
    · simpa [runs, fnCalls, retries, List.count_singleton', replied reply mem] using
        counted.answered reply mem
    · dsimp only at later
      simpa [runs, fnCalls, retries, List.count_singleton', show req.out ≠ o by omega] using
        counted.fresh o later
  · obtain ⟨waiting, flights, replied, made⟩ := life.alone_of_flying flying
    have before := counted.flying flight flying
    refine ⟨fun r mem => ?_, fun f mem => ?_, fun reply mem => ?_, fun o later => ?_⟩
    · rw [← List.append_assoc, List.mem_append, List.mem_singleton] at mem
      rcases mem with old | rfl
      · simpa [runs, fnCalls, retries, List.count_singleton', waiting r old] using
          counted.waiting r old
      · simp only [runs, fnCalls, retries, List.count_append, List.count_singleton_self]
          at before ⊢
        exact ⟨by omega, by omega, by omega, by omega⟩
    · simpa [runs, fnCalls, retries, List.count_singleton', flights f mem] using
        counted.flying f (List.mem_of_mem_erase mem)
    · simpa [runs, fnCalls, retries, List.count_singleton', replied reply mem] using
        counted.answered reply mem
    · dsimp only at later
      simpa [runs, fnCalls, retries, List.count_singleton', show flight.req.out ≠ o by omega] using
        counted.fresh o later
  · have before := counted.flying flight flying
    refine ⟨counted.waiting, fun f mem => counted.flying f (List.mem_of_mem_erase mem),
      fun reply mem => ?_, counted.fresh⟩
    simp only [List.mem_append, List.mem_singleton] at mem
    rcases mem with old | rfl
    · exact counted.answered reply old
    · change c.fnCalls flight.req.out ≤ 10 ∧ c.runs flight.req.out ≤ c.fnCalls flight.req.out + 1 ∧
        c.retries flight.req.out ≤ 10 ∧ (c.runs flight.req.out = 11 → _)
      exact ⟨by omega, by omega, by omega, fun eleven => by omega⟩
  · refine ⟨fun r mem => counted.waiting r ?_, counted.flying, counted.answered, counted.fresh⟩
    simp only [List.mem_append, List.mem_singleton] at mem ⊢
    rcases mem with ((queued | rfl) | held) | retry
    · exact .inl (.inl queued)
    · exact .inr retrying
    · exact .inl (.inr held)
    · exact .inr (List.mem_of_mem_erase retry)
  · exact ⟨counted.waiting, counted.flying, counted.answered, counted.fresh⟩
  · exact ⟨counted.waiting, counted.flying, counted.answered, counted.fresh⟩

/-- Every reachable state keeps the counts of every call in line with where it stands. -/
theorem counted_of_reachable {c : EthClient} (reach : Reachable c) : Counted c := by
  induction reach with
  | dial => exact ⟨by simp [dial, Loop.held], by simp [dial], by simp [dial],
      fun _ _ => by simp [dial, runs, fnCalls, retries]⟩
  | step _ reach moved counted => exact counted.step (lifecycle_of_reachable reach) moved

/-- A call that was made stands somewhere: waiting, in flight, or answered. -/
theorem Lifecycle.located {c : EthClient} (life : Lifecycle c) {out : Nat}
    (made : out < c.calls.length) :
    (∃ req ∈ c.inCh ++ c.loop.held ++ c.retrying, req.out = out) ∨
      (∃ flight ∈ c.inFlight, flight.req.out = out) ∨ ∃ reply ∈ c.replies, reply.1 = out := by
  have entry : (out, c.calls[out]) ∈ c.calls.enum :=
    List.mem_enum_iff_getElem?.2 (List.getElem?_eq_getElem made)
  have key := life.symm.subset entry
  simp only [keys, holders, List.mem_append, List.mem_map, Prod.mk.injEq] at key
  rcases key with ⟨req, ((queued | held) | ⟨flight, flying, rfl⟩) | retry, same, -⟩ |
    ⟨reply, replied, same, -⟩
  · exact .inl ⟨req, by simp [queued], same⟩
  · exact .inl ⟨req, by simp [held], same⟩
  · exact .inr (.inl ⟨flight, flying, same⟩)
  · exact .inl ⟨req, by simp [retry], same⟩
  · exact .inr (.inr ⟨reply, replied, same⟩)

/-- A call whose request the client still holds has no reply. -/
theorem Lifecycle.unanswered {c : EthClient} (life : Lifecycle c) {req : EthRequest}
    (held : req ∈ c.holders) : ∀ reply ∈ c.replies, reply.1 ≠ req.out := by
  have unique := life.count_le_one req.out
  have present : 0 < (c.holders.map (·.out)).count req.out :=
    List.count_pos_iff.2 (List.mem_map_of_mem _ held)
  exact fun reply mem => ne_of_count_eq_zero (·.1) req.out (by omega) mem

/-- In every reachable state a request's attempts are the times it was sent back for a retry,
and never more than 10; `fn` runs on it only below 10 attempts, so at most 10 transactions
are built and signed for a call; `runTransaction` handles a call at most 11 times, and after
the 11th the call is answered with the loop's error event, no nonce allocated for it. -/
theorem attempts_bounded :
    ∀ c : EthClient, Reachable c →
      (∀ req ∈ c.inCh ++ c.loop.held ++ c.retrying,
        c.retries req.out = req.attempts ∧ req.attempts ≤ 10) ∧
      (∀ flight ∈ c.inFlight,
        c.retries flight.req.out = flight.req.attempts ∧ flight.req.attempts < 10) ∧
      ∀ out, c.fnCalls out ≤ 10 ∧ c.runs out ≤ 11 ∧
        (c.runs out = 11 → c.fnCalls out = 10 ∧ ∃ event, (out, event) ∈ c.replies ∧
          event = .serviceErrorEvent event.id (.ofDescription "failed to execute service")) := by
  intro c reach
  have counted := counted_of_reachable reach
  refine ⟨fun req held => ⟨(counted.waiting req held).2.2.1, (counted.waiting req held).2.2.2⟩,
    fun flight flying => ⟨(counted.flying flight flying).2.2.1, (counted.flying flight flying).2.2.2⟩,
    fun out => ?_⟩
  by_cases made : out < c.calls.length
  · rcases (lifecycle_of_reachable reach).located made with
      ⟨req, held, rfl⟩ | ⟨flight, flying, rfl⟩ | ⟨⟨o, event⟩, replied, rfl⟩
    · have := counted.waiting req held; exact ⟨by omega, by omega, fun _ => by omega⟩
    · have := counted.flying flight flying; exact ⟨by omega, by omega, fun _ => by omega⟩
    · have := counted.answered _ replied
      exact ⟨this.1, by omega, fun eleven => ⟨by omega, event, replied, this.2.2.2 eleven⟩⟩
  · have := counted.fresh out (by omega); exact ⟨by omega, by omega, fun _ => by omega⟩

/-- A call whose submission is rejected for its nonce ten times: the loop has run it 11
times, built 10 transactions for it, and answered it with "failed to execute service". -/
theorem attempts_bounded_after_ten_retries :
    ∃ c : EthClient, Reachable c ∧ c.runs 0 = 11 ∧ c.fnCalls 0 = 10 ∧
      ∃ event, (0, event) ∈ c.replies ∧
        event = .serviceErrorEvent event.id (.ofDescription "failed to execute service") := by
  obtain ⟨c, reach, eleven⟩ := exists_reachable_of_run
    (.executeService 1 executeCall ::
      (List.range 10).flatMap (fun k => [.receive, .request fun _ => some 0,
        .complete ⟨⟨k, 0, 1, .execute executeCall⟩, k.toUInt64⟩ nonceTooLow,
        .requeue ⟨k + 1, 0, 1, .execute executeCall⟩]) ++
      [.receive, .request fun _ => some 0])
    (fun c => decide (c.runs 0 = 11)) (by decide)
  rw [decide_eq_true_eq] at eleven
  exact ⟨c, reach, eleven, ((attempts_bounded c reach).2.2 0).2.2 eleven⟩

end EthClient

end DeveloperGateway.Eth
