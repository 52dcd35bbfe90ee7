/-
# No call is stuck while the loop runs

The converse of what happens once the loop has returned: as long as the loop of
`startLoop` has not returned and no goroutine panicked, every request the client holds can
still be answered: some run of the client sends an event on its reply channel. The run
built here has the loop take the requests buffered in `inCh` in order and run `request` on
each, against a backend that fails every gas estimate, so that the goroutine of a
transaction in flight answers with the `ErrorEvent` of `executeTransaction`. A request
waiting to be sent back for a retry needs `inCh` still open; the loop first drains `inCh` to
make room.
-/

import DeveloperGateway.Eth.Lifecycle

namespace DeveloperGateway.Eth

/-- A backend that fails every gas estimate: `fn` then answers without a transaction. -/
def estimateFails : TxAnswers := ⟨.error "", .error "", .error "", .error ""⟩

/-- Against `estimateFails`, `fn` answers every request with `ErrEstimateGas`. -/
theorem fn_estimateFails (req : EthRequest) (nonce : UInt64) :
    (req.fn nonce estimateFails).2 = .ok (.errorEvent req.id (.ofCode .errEstimateGas)) := by
  obtain ⟨attempts, out, id, _ | _⟩ := req <;> rfl

namespace EthClient

/-- Some run from `c` sends a reply on the reply channel `out`. -/
def Answerable (c : EthClient) (out : Nat) : Prop :=
  ∃ labels c', c.run labels = some c' ∧ ∃ event, (out, event) ∈ c'.replies

section Answerable

variable {c c' : EthClient} {out : Nat}

/-- A call already answered is answerable. -/
theorem Answerable.of_reply {event : Event} (replied : (out, event) ∈ c.replies) :
    Answerable c out :=
  ⟨[], c, rfl, event, replied⟩

/-- A call answerable after one step is answerable before it. -/
theorem Answerable.of_step {label : Label} (moved : c.step label = some c')
    (later : Answerable c' out) : Answerable c out := by
  obtain ⟨labels, c'', ran, replied⟩ := later
  exact ⟨label :: labels, c'', by rw [run, moved]; exact ran, replied⟩

/-- A call answerable after a run is answerable before it. -/
theorem Answerable.of_run : ∀ {c : EthClient} {labels : List Label}, c.run labels = some c' →
    Answerable c' out → Answerable c out
  | _, [], ran, later => by cases ran; exact later
  | c, label :: labels, ran, later => by
    cases moved : c.step label with
    | none => simp [run, moved] at ran
    | some next =>
      simp only [run, moved, Option.some_bind] at ran
      exact .of_step moved (Answerable.of_run ran later)

end Answerable

/-- The goroutine of a transaction in flight, against `estimateFails`, answers its call. -/
theorem answerable_of_flight {c : EthClient} (running : c.panicked = false) {flight : Flight}
    (flying : flight ∈ c.inFlight) : Answerable c flight.req.out := by
  have moved : c.step (.complete flight estimateFails) =
      some { c with inFlight := c.inFlight.erase flight,
                    sent := c.sent ++ (flight.req.fn flight.nonce estimateFails).1.toList,
                    replies := c.replies ++ [(flight.req.out,
                      .errorEvent flight.req.id (.ofCode .errEstimateGas))] } := by
    simp [step, running, complete, flying, fn_estimateFails, completeTransaction]
  exact .of_step moved (.of_reply (List.mem_append_right _ (List.mem_singleton_self _)))

/-- The loop's `request` on the request it holds always moves: back to its `select`, with
`inCh`, the retries and the flags as they were, and the request answered or in flight. -/
theorem step_request_of_handling {c : EthClient} {req : EthRequest}
    (running : c.panicked = false) (handling : c.loop = .handling req)
    (pendingNonceAt : Nat → Option UInt64) :
    ∃ c', c.step (.request pendingNonceAt) = some c' ∧ c'.loop = .selecting ∧
      c'.inCh = c.inCh ∧ c'.retrying = c.retrying ∧ c'.closed = c.closed ∧
      c'.panicked = false ∧
      ((∃ event, (req.out, event) ∈ c'.replies) ∨ ∃ nonce, ⟨req, nonce⟩ ∈ c'.inFlight) := by
  obtain ⟨c', moved⟩ : ∃ c', c.step (.request pendingNonceAt) = some c' := by
    rw [← Option.isSome_iff_exists]
    simp only [step, running, request, handling, Bool.false_eq_true, if_false]
    split <;> rfl
  rcases step_request handling moved with ⟨event, -, rfl⟩ | ⟨nonce, -, rfl⟩
  · exact ⟨_, moved, rfl, rfl, rfl, rfl, running, .inl ⟨event, by simp⟩⟩
  · exact ⟨_, moved, rfl, rfl, rfl, rfl, running, .inr ⟨nonce, by simp⟩⟩

/-- The request the loop holds is answerable: by the loop itself, or by the goroutine
`runTransaction` starts for it. -/
theorem answerable_of_handling {c : EthClient} {req : EthRequest}
    (running : c.panicked = false) (handling : c.loop = .handling req) :
    Answerable c req.out := by
  obtain ⟨c', moved, -, -, -, -, stillRunning, ⟨event, replied⟩ | ⟨nonce, flying⟩⟩ :=
    step_request_of_handling running handling fun _ => none
  · exact .of_step moved (.of_reply replied)
  · exact .of_step moved (answerable_of_flight stillRunning flying)

/-- The loop's `select` takes the oldest buffered request. -/
theorem step_receive {c : EthClient} {first : EthRequest} {rest : List EthRequest}
    (running : c.panicked = false) (selecting : c.loop = .selecting)
    (buffered : c.inCh = first :: rest) :
    c.step .receive = some { c with loop := .handling first, inCh := rest } := by
  simp [step, running, receive, selecting, buffered]

/-- A request buffered in `inCh` is answerable while the loop is in its `select`: the loop
takes and handles every request before it, in order, and then this one. -/
theorem answerable_of_queued {req : EthRequest} :
    ∀ {queue : List EthRequest} {c : EthClient}, c.inCh = queue → c.panicked = false →
      c.loop = .selecting → req ∈ queue → Answerable c req.out
  | [], _, _, _, _, queued => absurd queued (List.not_mem_nil _)
  | first :: rest, c, buffered, running, selecting, queued => by
    refine .of_step (step_receive running selecting buffered) ?_
    rcases List.mem_cons.1 queued with rfl | later
    · exact answerable_of_handling running rfl
    · obtain ⟨c', moved, selecting', buffered', -, -, running', -⟩ :=
        step_request_of_handling (c := { c with loop := .handling first, inCh := rest })
          running rfl fun _ => none
      exact .of_step moved (answerable_of_queued buffered' running' selecting' later)

/-- The loop can empty `inCh`: a run ends with the loop in its `select`, nothing buffered,
and the retries and flags as they were. -/
theorem drain : ∀ {queue : List EthRequest} {c : EthClient}, c.inCh = queue →
    c.panicked = false → c.loop = .selecting →
    ∃ labels c', c.run labels = some c' ∧ c'.loop = .selecting ∧ c'.inCh = [] ∧
      c'.retrying = c.retrying ∧ c'.closed = c.closed ∧ c'.panicked = false
  | [], c, buffered, running, selecting => ⟨[], c, rfl, selecting, buffered, rfl, rfl, running⟩
  | first :: rest, c, buffered, running, selecting => by
    have received := step_receive running selecting buffered
    obtain ⟨c', moved, selecting', buffered', retrying', closed', running', -⟩ :=
      step_request_of_handling (c := { c with loop := .handling first, inCh := rest })
        running rfl fun _ => none
    obtain ⟨labels, c'', ran, drained⟩ := drain buffered' running' selecting'
    refine ⟨.receive :: .request (fun _ => none) :: labels, c'', ?_, ?_⟩
    · simp only [run, received, moved, Option.some_bind, ran]
    · rw [retrying', closed'] at drained
      exact drained

/-- The loop gets back to its `select`: at once, or after `request` on the request it
holds, with `inCh`, the retries and the flags as they were. -/
theorem selecting_of_running {c : EthClient} (running : c.panicked = false)
    (notReturned : c.loop ≠ .returned) :
    ∃ labels c', c.run labels = some c' ∧ c'.loop = .selecting ∧ c'.inCh = c.inCh ∧
      c'.retrying = c.retrying ∧ c'.closed = c.closed ∧ c'.panicked = false := by
  cases looping : c.loop with
  | selecting => exact ⟨[], c, rfl, looping, rfl, rfl, rfl, running⟩
  | handling r =>
    obtain ⟨c', moved, selecting, buffered, retrying, closed, running', -⟩ :=
      step_request_of_handling running looping fun _ => none
    exact ⟨[.request fun _ => none], c', by rw [run, moved]; rfl, selecting, buffered, retrying,
      closed, running'⟩
  | returned => exact absurd looping notReturned

/-- While the loop has not returned, no call is stuck: every request the client holds,
buffered in `inCh`, with the loop, or in flight, is answered by some run, and so is a
request waiting to be sent back while `inCh` is open. -/
theorem held_answerable {c : EthClient} (running : c.panicked = false)
    (notReturned : c.loop ≠ .returned) {req : EthRequest}
    (held : req ∈ c.inCh ++ c.loop.held ++ c.inFlight.map (·.req) ∨
      (req ∈ c.retrying ∧ c.closed = false)) :
    ∃ labels c', c.run labels = some c' ∧ ∃ event, (req.out, event) ∈ c'.replies := by
  obtain ⟨labels, c', ran, selecting, buffered, retrying, closed, running'⟩ :=
    selecting_of_running running notReturned
  show Answerable c req.out
  rw [List.mem_append, List.mem_append] at held
  rcases held with ((queued | handled) | flying) | ⟨waiting, notClosed⟩
  · exact .of_run ran (answerable_of_queued buffered running' selecting queued)
  · cases looping : c.loop with
    | handling r =>
      rw [looping, Loop.held, List.mem_singleton] at handled
      exact answerable_of_handling running (handled ▸ looping)
    | selecting | returned =>
      rw [looping] at handled
      exact absurd handled (List.not_mem_nil _)
  · obtain ⟨flight, flew, rfl⟩ := List.mem_map.1 flying
    exact answerable_of_flight running flew
  · obtain ⟨labels', c'', drained, selecting', empty, retrying', closed', running''⟩ :=
      drain rfl running' selecting
    have requeued : c''.step (.requeue req) =
        some { c'' with retrying := c''.retrying.erase req, inCh := [req] } := by
      simp [step, running'', requeue, retrying', retrying, waiting, closed', closed, notClosed,
        enqueue, empty]
    exact .of_run ran (.of_run drained (.of_step requeued
      (answerable_of_queued rfl running'' selecting' (List.mem_singleton_self _))))

/-- The call of one `ExecuteService`, still buffered, is answered: the loop takes it and
hands it a nonce, and its goroutine answers with `ErrEstimateGas`. -/
theorem held_answerable_buffered :
    ∃ labels c', ({ dial with calls := [1], inCh := [⟨0, 0, 1, .execute executeCall⟩] } :
      EthClient).run labels = some c' ∧ ∃ event, ((0 : Nat), event) ∈ c'.replies :=
  held_answerable (c := { dial with calls := [1], inCh := [⟨0, 0, 1, .execute executeCall⟩] })
    rfl (by decide) (.inl (List.mem_append_left _ (List.mem_append_left _ (List.mem_append_left _
      (List.mem_singleton_self _)))))

end EthClient

end DeveloperGateway.Eth
