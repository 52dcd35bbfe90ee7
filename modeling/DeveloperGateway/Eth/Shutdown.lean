/-
# Stopping the client

`Stop` closes `inCh` and waits for the loop, but its `WaitGroup` counts the loop only: the
goroutines that run `fn` on a request already handed a nonce are not waited for. One of
them whose send fails with a nonce error sends its request back on `inCh`, and once `inCh`
is closed that send panics. The panics of the model are exactly the sends on, and the
close of, a closed `inCh`.

The loop's `select` may return as soon as `c.ctx` is done, with requests still buffered in
`inCh`. Nothing takes a request out of `inCh` after that: the callers of those requests wait
on their `out` for ever.
-/

import DeveloperGateway.Eth.Lifecycle

namespace DeveloperGateway.Eth

namespace EthClient

/-- A goroutine still running `fn` when `Stop` closes `inCh`, whose send then fails with a
nonce error, waits to send its request back on the closed channel: from every running state
with such a flight, `Stop` and then the goroutine's completion lead to a closed client in
which that send panics. -/
theorem stop_then_retry_panics {c : EthClient} {flight : Flight} {answers : TxAnswers}
    (running : c.panicked = false) (notClosed : c.closed = false) (flying : flight ∈ c.inFlight)
    (retry : completeTransaction flight.req (flight.req.fn flight.nonce answers).2 = .retry) :
    ∃ c₁ c₂, c.step .stop = some c₁ ∧ c₁.step (.complete flight answers) = some c₂ ∧
      c₂.closed = true ∧ { flight.req with attempts := flight.req.attempts + 1 } ∈ c₂.retrying ∧
      c₂.step (.requeue { flight.req with attempts := flight.req.attempts + 1 }) =
        some c₂.panic := by
  refine ⟨{ c with closed := true },
    { c with closed := true, inFlight := c.inFlight.erase flight,
             sent := c.sent ++ (flight.req.fn flight.nonce answers).1.toList,
             retrying := c.retrying ++ [{ flight.req with attempts := flight.req.attempts + 1 }],
             retried := c.retried ++ [flight.req.out] },
    by simp [step, running, Stop, notClosed], by simp [step, running, complete, flying, retry],
    rfl, by simp, by simp [step, running, requeue, panic]⟩

/-- A client stopped while a transaction is in flight reaches a send on its closed `inCh`:
`ExecuteService`, the loop hands the request a nonce, `Stop` closes `inCh`, the send is
rejected with "nonce too low", and the goroutine's `c.inCh <- req` panics. -/
theorem stop_sends_on_closed_channel :
    ∃ c c' : EthClient, ∃ req, Reachable c ∧ c.closed = true ∧ req ∈ c.retrying ∧
      c.step (.requeue req) = some c' ∧ c'.panicked = true := by
  obtain ⟨c, reach, ready⟩ := exists_reachable_of_run
    [.executeService 1 executeCall, .receive, .request fun _ => none]
    (fun c => !c.panicked && !c.closed &&
      decide (⟨⟨0, 0, 1, .execute executeCall⟩, 0⟩ ∈ c.inFlight))
    (by decide)
  simp only [Bool.and_eq_true, Bool.not_eq_true', decide_eq_true_eq] at ready
  obtain ⟨⟨running, notClosed⟩, flying⟩ := ready
  obtain ⟨c₁, c₂, stopped, completed, closed, retrying, panics⟩ :=
    @stop_then_retry_panics c _ nonceTooLow running notClosed flying (by decide)
  exact ⟨c₂, c₂.panic, _, .step _ (.step _ reach stopped) completed, closed, retrying, panics,
    rfl⟩

/-- Once the loop has returned, a step keeps it returned and keeps every request buffered in
`inCh` or waiting to be sent back with the client. -/
theorem step_after_return {c c' : EthClient} {label : Label} (h : c.step label = some c')
    (returned : c.loop = .returned) :
    c'.loop = .returned ∧ ∀ req ∈ c.inCh ++ c.retrying, req ∈ c'.inCh ++ c'.retrying := by
  rcases (step_cases h).2 with ⟨-, rfl, -⟩ | ⟨_, _, -, -, -, rfl⟩ | ⟨_, _, -, -, rfl⟩ |
    ⟨_, _, -, -, -, -, rfl⟩ | ⟨_, _, -, selecting, -, -⟩ | ⟨-, selecting, -⟩ |
    ⟨_, _, _, -, handling, -, -⟩ | ⟨_, _, _, -, handling, -, -⟩ | ⟨_, _, -, -, -, rfl⟩ |
    ⟨_, _, _, -, -, -, rfl⟩ | ⟨req, -, -, -, -, rfl⟩ | ⟨-, -, rfl⟩ | ⟨-, rfl⟩
  · exact ⟨returned, fun _ held => held⟩
  · exact ⟨returned, fun _ held => by simp only [List.mem_append] at held ⊢; tauto⟩
  · exact ⟨returned, fun _ held => held⟩
  · exact ⟨returned, fun _ held => by simp only [List.mem_append] at held ⊢; tauto⟩
  · rw [returned] at selecting; cases selecting
  · rw [returned] at selecting; cases selecting
  · rw [returned] at handling; cases handling
  · rw [returned] at handling; cases handling
  · exact ⟨returned, fun _ held => by simp only [List.mem_append] at held ⊢; tauto⟩
  · exact ⟨returned, fun _ held => held⟩
  · refine ⟨returned, fun r held => ?_⟩
    simp only [List.mem_append, List.mem_singleton] at held ⊢
    by_cases same : r = req
    · exact .inl (.inr same)
    · rcases held with queued | retrying
      exacts [.inl (.inl queued), .inr ((List.mem_erase_of_ne same).2 retrying)]
  · exact ⟨returned, fun _ held => held⟩
  · exact ⟨returned, fun _ held => held⟩

/-- Once the loop has returned, no run takes a request out of `inCh` or away from the
goroutines that wait to send it back. -/
theorem run_after_return {c c' : EthClient} (returned : c.loop = .returned) :
    ∀ {labels : List Label}, c.run labels = some c' →
      ∀ req ∈ c.inCh ++ c.retrying, req ∈ c'.inCh ++ c'.retrying
  | [], ran, _, held => by cases ran; exact held
  | label :: labels, ran, req, held => by
    cases moved : c.step label with
    | none => simp [run, moved] at ran
    | some next =>
      simp only [run, moved, Option.bind_some] at ran
      obtain ⟨stillReturned, kept⟩ := step_after_return moved returned
      exact run_after_return stillReturned ran req (kept req held)

/-- Once the loop has returned, which its `select` may do as soon as `c.ctx` is done even
with requests buffered, a call whose request is buffered in `inCh` or waits to be sent back
is never answered: no run from there sends a reply on its `out`, and its caller waits for
ever. -/
theorem queued_never_answered {c : EthClient} (reach : Reachable c)
    (returned : c.loop = .returned) {req : EthRequest} (waiting : req ∈ c.inCh ++ c.retrying)
    {labels : List Label} {c' : EthClient} (ran : c.run labels = some c') :
    ∀ reply ∈ c'.replies, reply.1 ≠ req.out := by
  have kept := run_after_return returned ran req waiting
  refine (lifecycle_of_reachable (reachable_of_run reach ran)).unanswered ?_
  simp only [holders, List.mem_append] at kept ⊢
  tauto

/-- The client after one `ExecuteService` call whose request is still buffered when `c.ctx`
is cancelled and the loop returns. -/
def cancelledWithQueued : EthClient :=
  { dial with calls := [1], inCh := [⟨0, 0, 1, .execute executeCall⟩], ctxDone := true,
              loop := .returned }

/-- The queued request of `cancelledWithQueued` is never answered, while a later call with an
empty address is. -/
theorem queued_never_answered_after_cancel :
    Reachable cancelledWithQueued ∧ cancelledWithQueued.loop = .returned ∧
      ⟨0, 0, 1, .execute executeCall⟩ ∈ cancelledWithQueued.inCh ++ cancelledWithQueued.retrying ∧
      cancelledWithQueued.run [.executeService 2 ⟨"", ""⟩] =
        some { cancelledWithQueued with calls := [1, 2],
                                        replies := [(1, .errorEvent 2 (.ofCode .errInvalidAddress))] } ∧
      ∀ reply ∈ [((1 : Nat), Event.errorEvent 2 (.ofCode .errInvalidAddress))], reply.1 ≠ 0 := by
  have reach : Reachable cancelledWithQueued :=
    .step .exit (.step .cancel (.step (.executeService 1 executeCall) .dial rfl) rfl) rfl
  have waiting : (⟨0, 0, 1, .execute executeCall⟩ : EthRequest) ∈
      cancelledWithQueued.inCh ++ cancelledWithQueued.retrying :=
    List.mem_append_left _ (List.mem_singleton_self _)
  have ran : cancelledWithQueued.run [.executeService 2 ⟨"", ""⟩] =
      some { cancelledWithQueued with calls := [1, 2],
                                      replies := [(1, .errorEvent 2 (.ofCode .errInvalidAddress))] } :=
    rfl
  exact ⟨reach, rfl, waiting, ran, queued_never_answered reach rfl waiting ran⟩

end EthClient

end DeveloperGateway.Eth
