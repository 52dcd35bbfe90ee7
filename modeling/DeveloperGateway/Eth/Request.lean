/-
# Requests, events and transactions of the Ethereum client

The values that travel through `backend/eth/client.go`: the two kinds of request that
`DeployService` and `ExecuteService` queue, the events the client answers with, and
the pure parts of its methods. Every call the client makes to the backend is an
argument here (`TxAnswers`, `pendingNonceAt`), so that a run of the client can take
every answer a backend may give.

The `errors` package is not part of these sources: an `rpc.Error` built from one of
its codes keeps the code's name (`RpcError.ofCode`), and the text `err.Error()` of an
error that `executeTransaction` returns is the backend's answer itself.
-/

import Mathlib.Data.List.Infix
import Mathlib.Data.String.Basic

namespace DeveloperGateway.Eth

/-- The codes of the `errors` package that the clients return or put in their events. -/
inductive ErrorCode
  | errInvalidAddress
  | errEstimateGas
  | errSignedTx
  | errTransactionReceipt
  | errTransactionReceiptStatus
  | errInternalError
  | errEkidenGetPublicKey
  deriving DecidableEq, Repr

/-- The `rpc.Error` cause of an error event: the description and code of an `errors`
code, or a description of the client's own with the code `-1`. -/
inductive RpcError
  | ofCode (code : ErrorCode)
  | ofDescription (description : String)
  deriving DecidableEq, Repr

/-- The events of `backend/core` and the `service.ErrorEvent` of `api/v0/service`,
the only other event type the client sends. -/
inductive Event
  | executeServiceEvent (id : UInt64) (address : String)
  | deployServiceEvent (id : UInt64) (address : String)
  | errorEvent (id : UInt64) (cause : RpcError)
  | serviceErrorEvent (id : UInt64) (cause : RpcError)
  deriving DecidableEq, Repr

/-- `EventID`: every event carries the id of the request it answers. -/
def Event.id : Event → UInt64
  | .executeServiceEvent id _ | .deployServiceEvent id _ | .errorEvent id _
  | .serviceErrorEvent id _ => id

/-- `backend.ExecuteServiceRequest`; the issuer's `Key` is read by no method here. -/
structure ExecuteServiceRequest where
  data : String
  address : String
  deriving DecidableEq, Repr

/-- `backend.DeployServiceRequest`. -/
structure DeployServiceRequest where
  data : String
  deriving DecidableEq, Repr

/-- The payload of the two implementations of `ethRequest`. -/
inductive Payload
  | execute (request : ExecuteServiceRequest)
  | deploy (request : DeployServiceRequest)
  deriving DecidableEq, Repr

/-- An `ethRequest`: `executeServiceRequest` or `deployServiceRequest`. `out` names
the reply channel that the `DeployService` or `ExecuteService` call made for it. -/
structure EthRequest where
  attempts : Nat
  out : Nat
  id : UInt64
  request : Payload
  deriving DecidableEq, Repr

/-- `gasPrice`, the price of every transaction the client builds. -/
def gasPrice : Nat := 1000000000

/-- A transaction as `types.NewTransaction` and `types.NewContractCreation` build it;
`toAddress` is the address string given to `common.HexToAddress`, absent for a creation. -/
structure Transaction where
  nonce : UInt64
  toAddress : Option String
  value : Nat
  gas : UInt64
  gasPrice : Nat
  data : String
  deriving DecidableEq, Repr

/-- A transaction receipt; `contractAddress` is `ContractAddress.Hex()`. -/
structure Receipt where
  status : UInt64
  contractAddress : String
  deriving DecidableEq, Repr

/-- The answers to the calls of one `executeTransaction`: gas estimation, signing,
submission and the receipt. A failed submission is given by the text of the error
`executeTransaction` returns for it. -/
structure TxAnswers where
  estimateGas : Except String UInt64
  signTx : Except String Unit
  sendTransaction : Except String Unit
  transactionReceipt : Except String Receipt

/-- The transaction `executeTransaction` builds: a contract creation when `address` is
empty, a call of `common.HexToAddress(address)` otherwise. -/
def newTransaction (nonce : UInt64) (address : String) (gas : UInt64) (data : String) :
    Transaction :=
  { nonce, toAddress := if address.isEmpty then none else some address, value := 0, gas,
    gasPrice, data }

/-- `executeTransaction`: the transaction it submits, if it gets that far, and its
`(backend.Event, error)` result. -/
def executeTransaction (nonce id : UInt64) (address data : String) (answers : TxAnswers) :
    Option Transaction × Except String Event :=
  match answers.estimateGas with
  | .error _ => (none, .ok (.errorEvent id (.ofCode .errEstimateGas)))
  | .ok gas =>
    let tx := newTransaction nonce address gas data
    match answers.signTx with
    | .error _ => (none, .ok (.errorEvent id (.ofCode .errSignedTx)))
    | .ok () =>
      match answers.sendTransaction with
      | .error text => (some tx, .error text)
      | .ok () =>
        match answers.transactionReceipt with
        | .error _ => (some tx, .ok (.errorEvent id (.ofCode .errTransactionReceipt)))
        | .ok receipt =>
          if receipt.status ≠ 1 then
            (some tx, .ok (.errorEvent id (.ofCode .errTransactionReceiptStatus)))
          else (some tx, .ok (.executeServiceEvent id receipt.contractAddress))

/-- The six exits of `executeTransaction`, one per `return`. -/
theorem executeTransaction_cases (nonce id : UInt64) (address data : String)
    (answers : TxAnswers) :
    (executeTransaction nonce id address data answers =
        (none, .ok (.errorEvent id (.ofCode .errEstimateGas))) ∧
        ∃ e, answers.estimateGas = .error e) ∨
      (executeTransaction nonce id address data answers =
        (none, .ok (.errorEvent id (.ofCode .errSignedTx))) ∧ ∃ e, answers.signTx = .error e) ∨
      (∃ gas text, executeTransaction nonce id address data answers =
          (some (newTransaction nonce address gas data), .error text) ∧
        answers.sendTransaction = .error text) ∨
      (∃ gas, executeTransaction nonce id address data answers =
          (some (newTransaction nonce address gas data),
            .ok (.errorEvent id (.ofCode .errTransactionReceipt))) ∧
        answers.sendTransaction = .ok ()) ∨
      (∃ gas, executeTransaction nonce id address data answers =
          (some (newTransaction nonce address gas data),
            .ok (.errorEvent id (.ofCode .errTransactionReceiptStatus))) ∧
        answers.sendTransaction = .ok ()) ∨
      ∃ gas receipt, executeTransaction nonce id address data answers =
          (some (newTransaction nonce address gas data),
            .ok (.executeServiceEvent id receipt.contractAddress)) ∧
        answers.sendTransaction = .ok () ∧ answers.transactionReceipt = .ok receipt ∧
        receipt.status = 1 := by
  cases estimate : answers.estimateGas with
  | error e => exact .inl ⟨by simp only [executeTransaction, estimate], e, rfl⟩
  | ok gas =>
    cases sign : answers.signTx with
    | error e => exact .inr <| .inl ⟨by simp only [executeTransaction, estimate, sign], e, rfl⟩
    | ok _ =>
      cases send : answers.sendTransaction with
      | error text =>
        exact .inr <| .inr <| .inl
          ⟨gas, text, by simp only [executeTransaction, estimate, sign, send], rfl⟩
      | ok _ =>
        cases fetched : answers.transactionReceipt with
        | error e =>
          exact .inr <| .inr <| .inr <| .inl
            ⟨gas, by simp only [executeTransaction, estimate, sign, send, fetched], rfl⟩
        | ok receipt =>
          by_cases succeeded : receipt.status = 1
          · exact .inr <| .inr <| .inr <| .inr <| .inr ⟨gas, receipt,
              by simp [executeTransaction, estimate, sign, send, fetched, succeeded], rfl, rfl,
              succeeded⟩
          · exact .inr <| .inr <| .inr <| .inr <| .inl
              ⟨gas, by simp [executeTransaction, estimate, sign, send, fetched, succeeded], rfl⟩

/-- `deployService`: a contract creation. -/
def deployService (nonce id : UInt64) (req : DeployServiceRequest) :
    TxAnswers → Option Transaction × Except String Event :=
  executeTransaction nonce id "" req.data

/-- `executeService`: a call of the service at the request's address. -/
def executeService (nonce id : UInt64) (req : ExecuteServiceRequest) :
    TxAnswers → Option Transaction × Except String Event :=
  executeTransaction nonce id req.address req.data

/-- The `fn` that `request` hands to `runTransaction` for each kind of request. -/
def EthRequest.fn (req : EthRequest) (nonce : UInt64) :
    TxAnswers → Option Transaction × Except String Event :=
  match req.request with
  | .execute request => executeService nonce req.id request
  | .deploy request => deployService nonce req.id request

/-- Every event `executeTransaction` returns answers its own id. -/
theorem executeTransaction_id {nonce id : UInt64} {address data : String} {answers : TxAnswers}
    {event : Event} (h : (executeTransaction nonce id address data answers).2 = .ok event) :
    event.id = id := by
  rcases executeTransaction_cases nonce id address data answers with
    ⟨same, -⟩ | ⟨same, -⟩ | ⟨_, _, same, -⟩ | ⟨_, same, -⟩ | ⟨_, same, -⟩ | ⟨_, _, same, -⟩ <;>
    rw [same] at h <;> cases h <;> rfl

/-- `executeTransaction` submits at most one transaction, built with the nonce it was
handed. -/
theorem executeTransaction_sent {nonce id : UInt64} {address data : String}
    {answers : TxAnswers} {tx : Transaction}
    (h : (executeTransaction nonce id address data answers).1 = some tx) :
    ∃ gas, tx = newTransaction nonce address gas data := by
  rcases executeTransaction_cases nonce id address data answers with
    ⟨same, -⟩ | ⟨same, -⟩ | ⟨gas, _, same, -⟩ | ⟨gas, same, -⟩ | ⟨gas, same, -⟩ |
      ⟨gas, _, same, -⟩ <;>
    rw [same] at h <;> cases h <;> exact ⟨gas, rfl⟩

/-- `fn` answers with the id of the request it runs for. -/
theorem EthRequest.fn_id {req : EthRequest} {nonce : UInt64} {answers : TxAnswers}
    {event : Event} (h : (req.fn nonce answers).2 = .ok event) : event.id = req.id := by
  rcases req with ⟨_, _, _, _ | _⟩ <;> exact executeTransaction_id h

/-- `fn` submits at most one transaction, with the nonce it was handed. -/
theorem EthRequest.fn_sent_nonce {req : EthRequest} {nonce : UInt64} {answers : TxAnswers}
    {tx : Transaction} (h : (req.fn nonce answers).1 = some tx) : tx.nonce = nonce := by
  rcases req with ⟨_, _, _, _ | _⟩ <;> obtain ⟨gas, rfl⟩ := executeTransaction_sent h <;> rfl

/-- `strings.Contains`. -/
def contains (s substr : String) : Bool :=
  decide (substr.toList <:+: s.toList)

/-- The loop of `updateNonce` from iteration `attempts`, with `remaining` iterations
left; `pendingNonceAt i` is the backend's answer to the `i`-th call of `Nonce`, and
the result is the new value of `c.nonce`. -/
def updateNonceLoop (pendingNonceAt : Nat → Option UInt64) (nonce : UInt64) :
    Nat → Nat → Except String UInt64
  | _, 0 => .error "exceeded attempts to update nonce"
  | attempts, remaining + 1 =>
    match pendingNonceAt attempts with
    | none => updateNonceLoop pendingNonceAt nonce (attempts + 1) remaining
    | some pending => .ok (if nonce < pending then pending else nonce)

/-- `updateNonce`: up to 10 calls of `Nonce`, keeping the larger of the local
counter and the first pending nonce the backend reports. -/
def updateNonce (nonce : UInt64) (pendingNonceAt : Nat → Option UInt64) :
    Except String UInt64 :=
  updateNonceLoop pendingNonceAt nonce 0 10

/-- What a successful loop of `updateNonce` read: the first answer that was not an
error, and the counter it kept. -/
theorem updateNonceLoop_ok {pendingNonceAt : Nat → Option UInt64} {nonce updated : UInt64} :
    ∀ {attempts remaining : Nat},
      updateNonceLoop pendingNonceAt nonce attempts remaining = .ok updated →
      ∃ i pending, attempts ≤ i ∧ i < attempts + remaining ∧
        (∀ j, attempts ≤ j → j < i → pendingNonceAt j = none) ∧
        pendingNonceAt i = some pending ∧ updated = if nonce < pending then pending else nonce
  | _, 0, h => by cases h
  | attempts, remaining + 1, h => by
    cases answer : pendingNonceAt attempts with
    | none =>
      simp only [updateNonceLoop, answer] at h
      obtain ⟨i, pending, lower, upper, before, found, rfl⟩ := updateNonceLoop_ok h
      refine ⟨i, pending, by omega, by omega, fun j low high => ?_, found, rfl⟩
      rcases Nat.eq_or_lt_of_le low with rfl | later
      · exact answer
      · exact before j later high
    | some pending =>
      simp only [updateNonceLoop, answer, Except.ok.injEq] at h
      exact ⟨attempts, pending, le_rfl, by omega, fun j low high => by omega, answer, h.symm⟩

/-- A failed loop of `updateNonce` met an error at every one of its iterations. -/
theorem updateNonceLoop_error {pendingNonceAt : Nat → Option UInt64} {nonce : UInt64}
    {message : String} :
    ∀ {attempts remaining : Nat},
      updateNonceLoop pendingNonceAt nonce attempts remaining = .error message →
      ∀ j, attempts ≤ j → j < attempts + remaining → pendingNonceAt j = none
  | _, 0, _ => fun j low high => by omega
  | attempts, remaining + 1, h => by
    cases answer : pendingNonceAt attempts with
    | none =>
      simp only [updateNonceLoop, answer] at h
      intro j low high
      rcases Nat.eq_or_lt_of_le low with rfl | later
      · exact answer
      · exact updateNonceLoop_error h j later (by omega)
    | some pending => simp [updateNonceLoop, answer] at h

/-- `<` on `uint64` values is `<` on the numbers they hold. -/
theorem lt_iff_toNat_lt {a b : UInt64} : a < b ↔ a.toNat < b.toNat := Iff.rfl

/-- `≤` on `uint64` values is `≤` on the numbers they hold. -/
theorem le_iff_toNat_le {a b : UInt64} : a ≤ b ↔ a.toNat ≤ b.toNat := Iff.rfl

/-- `updateNonce` never lowers the counter, and the counter it keeps is at least the
first pending nonce the backend reported. -/
theorem updateNonce_ok {nonce updated : UInt64} {pendingNonceAt : Nat → Option UInt64}
    (h : updateNonce nonce pendingNonceAt = .ok updated) :
    nonce ≤ updated ∧ ∃ i < 10, (∀ j < i, pendingNonceAt j = none) ∧
      ∃ pending, pendingNonceAt i = some pending ∧ pending ≤ updated := by
  obtain ⟨i, pending, -, upper, before, found, rfl⟩ := updateNonceLoop_ok h
  simp only [lt_iff_toNat_lt, le_iff_toNat_le] at *
  refine ⟨by split <;> omega, i, upper, fun j low => before j (Nat.zero_le j) low, pending,
    found, by split <;> omega⟩

/-- `updateNonce` fails exactly when all 10 of its calls of `Nonce` fail. -/
theorem updateNonce_error_iff {nonce : UInt64} {pendingNonceAt : Nat → Option UInt64} :
    (∃ message, updateNonce nonce pendingNonceAt = .error message) ↔
      ∀ j < 10, pendingNonceAt j = none := by
  constructor
  · rintro ⟨message, h⟩ j upper
    exact updateNonceLoop_error h j (Nat.zero_le j) upper
  · intro failing
    cases h : updateNonce nonce pendingNonceAt with
    | error message => exact ⟨message, rfl⟩
    | ok updated =>
      obtain ⟨-, i, upper, -, pending, found, -⟩ := updateNonce_ok h
      simp [failing i upper] at found

/-- How the loop's part of `runTransaction` ends: an event it sends on the request's
reply channel, or the nonce it allocates before starting the goroutine that runs
`fn`. -/
inductive Handled
  | answered (event : Event)
  | allocated (nonce : UInt64)
  deriving DecidableEq, Repr

/-- The loop's part of `runTransaction`, with `nonce` the value of `c.nonce`. -/
def runTransaction (nonce : UInt64) (req : EthRequest)
    (pendingNonceAt : Nat → Option UInt64) : Handled :=
  if 10 ≤ req.attempts then
    .answered (.serviceErrorEvent req.id (.ofDescription "failed to execute service"))
  else if 0 < req.attempts then
    match updateNonce nonce pendingNonceAt with
    | .error _ => .answered (.serviceErrorEvent req.id (.ofDescription "failed to update nonce"))
    | .ok updated => .allocated updated
  else .allocated nonce

/-- A request the loop answers has been handled before, and is answered with an error
of the loop: retries exhausted, or no pending nonce in 10 calls. -/
theorem runTransaction_answered {nonce : UInt64} {req : EthRequest}
    {pendingNonceAt : Nat → Option UInt64} {event : Event}
    (h : runTransaction nonce req pendingNonceAt = .answered event) :
    (10 ≤ req.attempts ∧
        event = .serviceErrorEvent req.id (.ofDescription "failed to execute service")) ∨
      (0 < req.attempts ∧ req.attempts < 10 ∧ (∀ j < 10, pendingNonceAt j = none) ∧
        event = .serviceErrorEvent req.id (.ofDescription "failed to update nonce")) := by
  by_cases exhausted : 10 ≤ req.attempts
  · simp only [runTransaction, if_pos exhausted, Handled.answered.injEq] at h
    exact .inl ⟨exhausted, h.symm⟩
  · by_cases retried : 0 < req.attempts
    · cases refreshed : updateNonce nonce pendingNonceAt with
      | error message =>
        simp only [runTransaction, if_neg exhausted, if_pos retried, refreshed,
          Handled.answered.injEq] at h
        exact .inr ⟨retried, by omega, updateNonce_error_iff.1 ⟨message, refreshed⟩, h.symm⟩
      | ok updated => simp [runTransaction, exhausted, retried, refreshed] at h
    · simp [runTransaction, exhausted, retried] at h

/-- The nonce the loop allocates: only below 10 attempts, never below the counter,
and on a retry never below the pending nonce the backend reported. -/
theorem runTransaction_allocated {nonce allocated : UInt64} {req : EthRequest}
    {pendingNonceAt : Nat → Option UInt64}
    (h : runTransaction nonce req pendingNonceAt = .allocated allocated) :
    req.attempts < 10 ∧ nonce ≤ allocated ∧
      (0 < req.attempts → ∃ i < 10, (∀ j < i, pendingNonceAt j = none) ∧
        ∃ pending, pendingNonceAt i = some pending ∧ pending ≤ allocated) := by
  by_cases exhausted : 10 ≤ req.attempts
  · simp [runTransaction, exhausted] at h
  · by_cases retried : 0 < req.attempts
    · cases refreshed : updateNonce nonce pendingNonceAt with
      | error message => simp [runTransaction, exhausted, retried, refreshed] at h
      | ok updated =>
        simp only [runTransaction, if_neg exhausted, if_pos retried, refreshed,
          Handled.allocated.injEq] at h
        subst h
        exact ⟨by omega, (updateNonce_ok refreshed).1, fun _ => (updateNonce_ok refreshed).2⟩
    · simp only [runTransaction, if_neg exhausted, if_neg retried, Handled.allocated.injEq] at h
      exact ⟨by omega, h ▸ UInt64.le_refl _, fun positive => absurd positive retried⟩

/-- How the goroutine of `runTransaction` ends once `fn` returned. -/
inductive Completed
  | retry
  | answer (event : Event)
  deriving DecidableEq, Repr

/-- The goroutine of `runTransaction` after `fn`: an error whose text mentions a
nonce sends the request back to the loop, any other error becomes an error event. -/
def completeTransaction (req : EthRequest) : Except String Event → Completed
  | .ok event => .answer event
  | .error text =>
    if contains text "nonce" then .retry
    else .answer (.errorEvent req.id (.ofDescription text))

/-- The goroutine answers with the request's id whenever `fn` does. -/
theorem completeTransaction_id {req : EthRequest} {result : Except String Event}
    {event : Event} (h : completeTransaction req result = .answer event)
    (answers : ∀ e, result = .ok e → e.id = req.id) : event.id = req.id := by
  unfold completeTransaction at h
  split at h
  · cases h; exact answers _ rfl
  · split at h <;> cases h; rfl

end DeveloperGateway.Eth
