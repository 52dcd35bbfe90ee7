/-
# The events the client answers with

Every reply the client sends comes from one of four places: `ExecuteService` on an empty
address, the loop's `runTransaction` (retries exhausted, or no pending nonce), the
goroutine's error event for an error of `fn` that does not mention a nonce, and the
event `executeTransaction` returns. `Event.sendable` collects them; it holds of every
reply of every run. `executeTransaction` ends a transaction that went through with an
`ExecuteServiceEvent` carrying the receipt's contract address, for a deployment as for a
call, and the loop's errors are `service.ErrorEvent`s, not the backend's `ErrorEvent`.
-/

import DeveloperGateway.Eth.Nonce

namespace DeveloperGateway.Eth

/-- The events the client can send on a reply channel: a backend `ErrorEvent` with an
`errors` code of a failed step, or with the text of an error of `fn` that does not
mention a nonce; the loop's `service.ErrorEvent`; an `ExecuteServiceEvent`. Never a
`DeployServiceEvent`. -/
def Event.sendable : Event → Bool
  | .executeServiceEvent _ _ => true
  | .deployServiceEvent _ _ => false
  | .errorEvent _ (.ofCode code) => decide (code ∈ [.errInvalidAddress, .errEstimateGas,
      .errSignedTx, .errTransactionReceipt, .errTransactionReceiptStatus])
  | .errorEvent _ (.ofDescription text) => !contains text "nonce"
  | .serviceErrorEvent _ cause =>
    cause == .ofDescription "failed to execute service" ||
      cause == .ofDescription "failed to update nonce"

/-- Every event `executeTransaction` returns is one the client can send. -/
theorem executeTransaction_sendable {nonce id : UInt64} {address data : String}
    {answers : TxAnswers} {event : Event}
    (h : (executeTransaction nonce id address data answers).2 = .ok event) :
    event.sendable = true := by
  rcases executeTransaction_cases nonce id address data answers with
    ⟨ran, -⟩ | ⟨ran, -⟩ | ⟨_, _, ran, -⟩ | ⟨_, ran, -⟩ | ⟨_, ran, -⟩ | ⟨_, _, ran, -⟩ <;>
    rw [ran] at h <;> cases h <;> rfl

/-- A transaction that went through is answered with an `ExecuteServiceEvent` carrying
the receipt's contract address, whatever the kind of request: a deployment is not
answered with a `DeployServiceEvent`, and a call not with the address it named. -/
theorem EthRequest.fn_succeeded (req : EthRequest) (nonce : UInt64) {answers : TxAnswers}
    {gas : UInt64} {receipt : Receipt} (estimated : answers.estimateGas = .ok gas)
    (signed : answers.signTx = .ok ()) (sent : answers.sendTransaction = .ok ())
    (received : answers.transactionReceipt = .ok receipt) (status : receipt.status = 1) :
    (req.fn nonce answers).2 = .ok (.executeServiceEvent req.id receipt.contractAddress) := by
  rcases req with ⟨_, _, _, _ | _⟩ <;>
    simp [EthRequest.fn, executeService, deployService, executeTransaction, estimated, signed,
      sent, received, status]

/-- Every event of the goroutine of `runTransaction` is one the client can send. -/
theorem completeTransaction_sendable {req : EthRequest} {result : Except String Event}
    {event : Event} (h : completeTransaction req result = .answer event)
    (returned : ∀ e, result = .ok e → e.sendable = true) : event.sendable = true := by
  cases result with
  | ok e => cases h; exact returned _ rfl
  | error text =>
    by_cases nonce : contains text "nonce" = true
    · simp [completeTransaction, nonce] at h
    · simp only [completeTransaction, nonce, Bool.false_eq_true, if_false,
        Completed.answer.injEq] at h
      subst h
      simpa [Event.sendable] using nonce

/-- Every event the loop sends is a `service.ErrorEvent` the client can send. -/
theorem runTransaction_sendable {nonce : UInt64} {req : EthRequest}
    {pendingNonceAt : Nat → Option UInt64} {event : Event}
    (h : runTransaction nonce req pendingNonceAt = .answered event) : event.sendable = true := by
  rcases runTransaction_answered h with ⟨-, rfl⟩ | ⟨-, -, -, rfl⟩ <;> rfl

namespace EthClient

/-- Every reply of every run is an event the client can send: in particular no call is
ever answered with a `DeployServiceEvent`. -/
theorem replies_sendable :
    ∀ c : EthClient, Reachable c → ∀ reply ∈ c.replies, reply.2.sendable = true := by
  intro c reach
  refine Reachable.invariant (fun c => ∀ reply ∈ c.replies, reply.2.sendable = true)
    (by simp [dial]) (fun _ _ sendable moved => ?_) reach
  rcases (step_cases moved).2 with ⟨-, rfl, -⟩ | ⟨_, _, -, -, -, rfl⟩ | ⟨_, _, -, -, rfl⟩ |
    ⟨_, _, -, -, -, -, rfl⟩ | ⟨_, _, -, -, -, rfl⟩ | ⟨-, -, rfl⟩ |
    ⟨_, _, _, -, -, answered, rfl⟩ | ⟨_, _, _, -, -, -, rfl⟩ | ⟨_, _, -, -, -, rfl⟩ |
    ⟨flight, answers, _, -, -, answered, rfl⟩ | ⟨_, -, -, -, -, rfl⟩ | ⟨-, -, rfl⟩ | ⟨-, rfl⟩
  all_goals first
    | exact sendable
    | simp only [List.mem_append, List.mem_singleton]
      rintro reply (old | rfl)
      · exact sendable reply old
  · rfl
  · exact runTransaction_sendable answered
  · refine completeTransaction_sendable answered fun e ran => ?_
    rcases flight with ⟨⟨_, _, _, _ | _⟩, _⟩ <;> exact executeTransaction_sendable ran

/-- A call with an empty address is answered at once with `ErrInvalidAddress`, an event the
client can send. -/
theorem replies_sendable_invalid_address :
    Reachable { dial with calls := [1],
                          replies := [(0, .errorEvent 1 (.ofCode .errInvalidAddress))] } ∧
      (0, Event.errorEvent 1 (.ofCode .errInvalidAddress)) ∈
        [(0, Event.errorEvent 1 (.ofCode .errInvalidAddress))] ∧
      (Event.errorEvent 1 (.ofCode .errInvalidAddress)).sendable = true :=
  have reach : Reachable { dial with calls := [1],
                                     replies := [(0, .errorEvent 1 (.ofCode .errInvalidAddress))] } :=
    .step (.executeService 1 ⟨"", ""⟩) .dial rfl
  ⟨reach, List.mem_singleton_self _,
    replies_sendable _ reach _ (List.mem_singleton_self _)⟩

/-- The deployment of the tests, whose data is the zero address. -/
def deployCall : DeployServiceRequest := ⟨"0x0000000000000000000000000000000000000000"⟩

/-- A backend that mines every transaction with status 1, the receipt naming
`contractAddress` (the zero address for a call, which creates no contract). -/
def mined (contractAddress : String) : TxAnswers :=
  { estimateGas := .ok 21000, signTx := .ok (), sendTransaction := .ok (),
    transactionReceipt := .ok ⟨1, contractAddress⟩ }

/-- A deployment that went through is answered with an `ExecuteServiceEvent`, a call
that went through with the receipt's zero contract address in place of the address it
named, and a request out of attempts with the loop's `service.ErrorEvent`. -/
theorem success_events_ignore_request_kind :
    (dial.run [.deployService 1 deployCall, .receive, .request fun _ => none,
      .complete ⟨⟨0, 0, 1, .deploy deployCall⟩, 0⟩
        (mined "0x6F6704E5a10332aF6672E50B3d9754Dc460DFa4D")]).map (·.replies) =
      some [(0, .executeServiceEvent 1 "0x6F6704E5a10332aF6672E50B3d9754Dc460DFa4D")] ∧
    (dial.run [.executeService 1 executeCall, .receive, .request fun _ => none,
      .complete ⟨⟨0, 0, 1, .execute executeCall⟩, 0⟩
        (mined "0x0000000000000000000000000000000000000000")]).map (·.replies) =
      some [(0, .executeServiceEvent 1 "0x0000000000000000000000000000000000000000")] ∧
    executeCall.address ≠ "0x0000000000000000000000000000000000000000" ∧
    runTransaction 0 ⟨10, 0, 1, .execute executeCall⟩ (fun _ => none) =
      .answered (.serviceErrorEvent 1 (.ofDescription "failed to execute service")) := by
  have deployed := EthRequest.fn_succeeded ⟨0, 0, 1, .deploy deployCall⟩ 0
    (show (mined "0x6F6704E5a10332aF6672E50B3d9754Dc460DFa4D").estimateGas = .ok 21000 from rfl)
    rfl rfl rfl rfl
  have executed := EthRequest.fn_succeeded ⟨0, 0, 1, .execute executeCall⟩ 0
    (show (mined "0x0000000000000000000000000000000000000000").estimateGas = .ok 21000 from rfl)
    rfl rfl rfl rfl
  refine ⟨?_, ?_, by decide, rfl⟩
  · simp [run, step, dial, DeployService, enqueue, receive, request, runTransaction, complete,
      deployed, completeTransaction]
  · have named : executeCall.address.isEmpty = false := by decide
    simp [run, step, dial, ExecuteService, named, enqueue, receive, request, runTransaction,
      complete, executed, completeTransaction]

end EthClient

end DeveloperGateway.Eth
