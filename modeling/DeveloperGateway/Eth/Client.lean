/-
# The Ethereum client as a transition system

`EthClient` of `backend/eth/client.go` together with every goroutine it runs: the
callers of `DeployService` and `ExecuteService`, the loop of `startLoop`, one goroutine
per transaction in flight, and the goroutines of retries that wait to send their
request back on `inCh`. A step is one of them moving. Which one moves, and what the
backend answers it, is the step's label, so the reachable states are those of every
interleaving against every backend.

Besides the fields of the client, a state keeps what the outside sees: the nonces the
loop allocated, the transactions handed to `SendTransaction`, the event every call
returned, and the call each run of `runTransaction` and each retry was for.
-/

import DeveloperGateway.Eth.Request

namespace DeveloperGateway.Eth

/-- Where the loop goroutine of `startLoop` stands. -/
inductive Loop
  /-- In its `select`. -/
  | selecting
  /-- Running `c.request(req)` on the request it received. -/
  | handling (req : EthRequest)
  /-- Returned from the goroutine. -/
  | returned
  deriving DecidableEq, Repr

/-- The goroutine `runTransaction` starts: the request and the nonce handed to `fn`. -/
structure Flight where
  req : EthRequest
  nonce : UInt64
  deriving DecidableEq, Repr

/-- The client and the goroutines it started. -/
structure EthClient where
  /-- `c.nonce`, the next nonce to allocate. -/
  nonce : UInt64
  /-- The requests buffered in `c.inCh`, oldest first. -/
  inCh : List EthRequest
  /-- `Stop` closed `c.inCh`. -/
  closed : Bool
  /-- `c.ctx` is done. -/
  ctxDone : Bool
  loop : Loop
  /-- The goroutines of `runTransaction` that have still to run `fn`. -/
  inFlight : List Flight
  /-- The goroutines blocked in `c.inCh <- req` after a nonce error. -/
  retrying : List EthRequest
  /-- The id of every `DeployService` and `ExecuteService` call; call `i` owns the reply
  channel `i`. -/
  calls : List UInt64
  /-- The nonces the loop allocated, each with its call. -/
  allocated : List (Nat × UInt64)
  /-- The transactions handed to `SendTransaction`. -/
  sent : List Transaction
  /-- The event each call returned. -/
  replies : List (Nat × Event)
  /-- The call of each run of `runTransaction`. -/
  handled : List Nat
  /-- The call of each request a goroutine sent back for a retry. -/
  retried : List Nat
  /-- A goroutine panicked, which ends the process. -/
  panicked : Bool
  deriving DecidableEq, Repr

/-- What moves in one step of the client. -/
inductive Label
  /-- A caller of `DeployService`. -/
  | deployService (id : UInt64) (req : DeployServiceRequest)
  /-- A caller of `ExecuteService`. -/
  | executeService (id : UInt64) (req : ExecuteServiceRequest)
  /-- The loop's `select` receives from `inCh`. -/
  | receive
  /-- The loop's `select` returns. -/
  | exit
  /-- The loop runs `request`; `pendingNonceAt` answers the calls of `updateNonce`. -/
  | request (pendingNonceAt : Nat → Option UInt64)
  /-- The goroutine of a transaction in flight runs `fn` against `answers`. -/
  | complete (flight : Flight) (answers : TxAnswers)
  /-- A retrying goroutine's send on `inCh` goes through. -/
  | requeue (req : EthRequest)
  /-- A caller of `Stop`. -/
  | stop
  /-- The client's context is cancelled. -/
  | cancel

namespace EthClient

/-- The client `Dial` returns, its loop started. -/
def dial : EthClient :=
  { nonce := 0, inCh := [], closed := false, ctxDone := false, loop := .selecting,
    inFlight := [], retrying := [], calls := [], allocated := [], sent := [], replies := [],
    handled := [], retried := [], panicked := false }

/-- A goroutine panics; nothing moves any more. -/
def panic (c : EthClient) : EthClient := { c with panicked := true }

/-- `c.inCh <- req` of a caller or a retry, which blocks while 64 requests are buffered;
the panic of a send on a closed channel is left to the caller of `enqueue`. -/
def enqueue (c : EthClient) (req : EthRequest) : Option EthClient :=
  if c.inCh.length < 64 then some { c with inCh := c.inCh ++ [req] } else none

/-- `DeployService`: a request with no attempts yet, on a fresh reply channel. -/
def DeployService (c : EthClient) (id : UInt64) (req : DeployServiceRequest) :
    Option EthClient :=
  if c.closed then some c.panic
  else { c with calls := c.calls ++ [id] }.enqueue ⟨0, c.calls.length, id, .deploy req⟩

/-- `ExecuteService`: an empty address is answered at once with `ErrInvalidAddress`;
any other address is queued like `DeployService` does. -/
def ExecuteService (c : EthClient) (id : UInt64) (req : ExecuteServiceRequest) :
    Option EthClient :=
  if req.address.isEmpty then
    some { c with calls := c.calls ++ [id],
                  replies := c.replies ++ [(c.calls.length, .errorEvent id (.ofCode .errInvalidAddress))] }
  else if c.closed then some c.panic
  else { c with calls := c.calls ++ [id] }.enqueue ⟨0, c.calls.length, id, .execute req⟩

/-- The loop's `select` takes the oldest buffered request. -/
def receive (c : EthClient) : Option EthClient :=
  match c.loop, c.inCh with
  | .selecting, req :: rest => some { c with loop := .handling req, inCh := rest }
  | _, _ => none

/-- The loop's `select` returns: `c.ctx` is done, or `inCh` is closed and drained. -/
def exit (c : EthClient) : Option EthClient :=
  if c.loop = .selecting ∧ (c.ctxDone ∨ (c.closed ∧ c.inCh = [])) then
    some { c with loop := .returned }
  else none

/-- `c.request(req)`: the loop runs `runTransaction` on the request it received, and
either answers it or allocates a nonce and starts the goroutine that runs `fn`. -/
def request (c : EthClient) (pendingNonceAt : Nat → Option UInt64) : Option EthClient :=
  match c.loop with
  | .handling req =>
    let c := { c with loop := .selecting, handled := c.handled ++ [req.out] }
    match runTransaction c.nonce req pendingNonceAt with
    | .answered event => some { c with replies := c.replies ++ [(req.out, event)] }
    | .allocated nonce =>
      some { c with nonce := nonce + 1, inFlight := c.inFlight ++ [⟨req, nonce⟩],
                    allocated := c.allocated ++ [(req.out, nonce)] }
  | _ => none

/-- The goroutine of a transaction in flight: `fn` against the backend's answers, then
a retry or an answer on the request's reply channel. -/
def complete (c : EthClient) (flight : Flight) (answers : TxAnswers) : Option EthClient :=
  if flight ∈ c.inFlight then
    let req := flight.req
    let c := { c with inFlight := c.inFlight.erase flight,
                      sent := c.sent ++ (req.fn flight.nonce answers).1.toList }
    match completeTransaction req (req.fn flight.nonce answers).2 with
    | .retry =>
      some { c with retrying := c.retrying ++ [{ req with attempts := req.attempts + 1 }],
                    retried := c.retried ++ [req.out] }
    | .answer event => some { c with replies := c.replies ++ [(req.out, event)] }
  else none

/-- The send `c.inCh <- req` of a retrying goroutine: a panic once `inCh` is closed. -/
def requeue (c : EthClient) (req : EthRequest) : Option EthClient :=
  if req ∈ c.retrying then
    if c.closed then some c.panic
    else { c with retrying := c.retrying.erase req }.enqueue req
  else none

/-- `Stop`: `close(c.inCh)`, which panics on a channel already closed. -/
def Stop (c : EthClient) : EthClient :=
  if c.closed then c.panic else { c with closed := true }

/-- The client's context is cancelled. -/
def cancel (c : EthClient) : EthClient := { c with ctxDone := true }

/-- One step of the client; none when the label cannot move, or after a panic. -/
def step (c : EthClient) (label : Label) : Option EthClient :=
  if c.panicked then none
  else
    match label with
    | .deployService id req => c.DeployService id req
    | .executeService id req => c.ExecuteService id req
    | .receive => c.receive
    | .exit => c.exit
    | .request pendingNonceAt => c.request pendingNonceAt
    | .complete flight answers => c.complete flight answers
    | .requeue req => c.requeue req
    | .stop => some c.Stop
    | .cancel => some c.cancel

/-- Every move of the client, with its guard and the state it leads to. A panic is
only ever a send on, or a close of, a closed `inCh`. -/
theorem step_cases {c c' : EthClient} {label : Label} (h : c.step label = some c') :
    c.panicked = false ∧
      ((c.closed = true ∧ c' = c.panic ∧
        ((∃ id req, label = .deployService id req) ∨
          (∃ id req, label = .executeService id req ∧ req.address.isEmpty = false) ∨
          (∃ req, label = .requeue req ∧ req ∈ c.retrying) ∨ label = .stop)) ∨
      (∃ id req, label = .deployService id req ∧ c.closed = false ∧ c.inCh.length < 64 ∧
        c' = { c with calls := c.calls ++ [id],
                      inCh := c.inCh ++ [⟨0, c.calls.length, id, .deploy req⟩] }) ∨
      (∃ id req, label = .executeService id req ∧ req.address.isEmpty = true ∧
        c' = { c with calls := c.calls ++ [id],
                      replies := c.replies ++
                        [(c.calls.length, .errorEvent id (.ofCode .errInvalidAddress))] }) ∨
      (∃ id req, label = .executeService id req ∧ req.address.isEmpty = false ∧
        c.closed = false ∧ c.inCh.length < 64 ∧
        c' = { c with calls := c.calls ++ [id],
                      inCh := c.inCh ++ [⟨0, c.calls.length, id, .execute req⟩] }) ∨
      (∃ req rest, label = .receive ∧ c.loop = .selecting ∧ c.inCh = req :: rest ∧
        c' = { c with loop := .handling req, inCh := rest }) ∨
      (label = .exit ∧ c.loop = .selecting ∧ c' = { c with loop := .returned }) ∨
      (∃ req pendingNonceAt event, label = .request pendingNonceAt ∧ c.loop = .handling req ∧
        runTransaction c.nonce req pendingNonceAt = .answered event ∧
        c' = { c with loop := .selecting, handled := c.handled ++ [req.out],
                      replies := c.replies ++ [(req.out, event)] }) ∨
      (∃ req pendingNonceAt nonce, label = .request pendingNonceAt ∧ c.loop = .handling req ∧
        runTransaction c.nonce req pendingNonceAt = .allocated nonce ∧
        c' = { c with loop := .selecting, handled := c.handled ++ [req.out], nonce := nonce + 1,
                      inFlight := c.inFlight ++ [⟨req, nonce⟩],
                      allocated := c.allocated ++ [(req.out, nonce)] }) ∨
      (∃ flight answers, label = .complete flight answers ∧ flight ∈ c.inFlight ∧
        completeTransaction flight.req (flight.req.fn flight.nonce answers).2 = .retry ∧
        c' = { c with inFlight := c.inFlight.erase flight,
                      sent := c.sent ++ (flight.req.fn flight.nonce answers).1.toList,
                      retrying := c.retrying ++
                        [{ flight.req with attempts := flight.req.attempts + 1 }],
                      retried := c.retried ++ [flight.req.out] }) ∨
      (∃ flight answers event, label = .complete flight answers ∧ flight ∈ c.inFlight ∧
        completeTransaction flight.req (flight.req.fn flight.nonce answers).2 = .answer event ∧
        c' = { c with inFlight := c.inFlight.erase flight,
                      sent := c.sent ++ (flight.req.fn flight.nonce answers).1.toList,
                      replies := c.replies ++ [(flight.req.out, event)] }) ∨
      (∃ req, label = .requeue req ∧ req ∈ c.retrying ∧ c.closed = false ∧
        c.inCh.length < 64 ∧
        c' = { c with retrying := c.retrying.erase req, inCh := c.inCh ++ [req] }) ∨
      (label = .stop ∧ c.closed = false ∧ c' = { c with closed := true }) ∨
      (label = .cancel ∧ c' = { c with ctxDone := true })) := by
  by_cases panicked : c.panicked = true
  · simp [step, panicked] at h
  rw [step.eq_def, if_neg panicked] at h
  refine ⟨by simpa using panicked, ?_⟩
  cases label with
  | deployService id req =>
    dsimp only [DeployService, enqueue] at h
    split at h
    · cases h; exact .inl ⟨‹_›, rfl, .inl ⟨id, req, rfl⟩⟩
    · split at h
      · cases h
        exact .inr <| .inl ⟨id, req, rfl, by simpa using ‹¬c.closed = true›, ‹_›, rfl⟩
      · cases h
  | executeService id req =>
    dsimp only [ExecuteService, enqueue] at h
    split at h
    · cases h; exact .inr <| .inr <| .inl ⟨id, req, rfl, ‹_›, rfl⟩
    · split at h
      · cases h
        exact .inl ⟨‹_›, rfl, .inr <| .inl ⟨id, req, rfl, by simpa using ‹¬req.address.isEmpty = true›⟩⟩
      · split at h
        · cases h
          exact .inr <| .inr <| .inr <| .inl
            ⟨id, req, rfl, by simpa using ‹¬req.address.isEmpty = true›,
              by simpa using ‹¬c.closed = true›, ‹_›, rfl⟩
        · cases h
  | receive =>
    dsimp only [receive] at h
    split at h
    · cases h; exact .inr <| .inr <| .inr <| .inr <| .inl ⟨_, _, rfl, ‹_›, ‹_›, rfl⟩
    · cases h
  | exit =>
    dsimp only [exit] at h
    split at h
    · cases h; exact .inr <| .inr <| .inr <| .inr <| .inr <| .inl ⟨rfl, ‹_ ∧ _›.1, rfl⟩
    · cases h
  | request pendingNonceAt =>
    dsimp only [request] at h
    split at h
    · split at h
      · cases h
        exact .inr <| .inr <| .inr <| .inr <| .inr <| .inr <| .inl
          ⟨_, _, _, rfl, ‹_›, ‹_›, rfl⟩
      · cases h
        exact .inr <| .inr <| .inr <| .inr <| .inr <| .inr <| .inr <| .inl
          ⟨_, _, _, rfl, ‹_›, ‹_›, rfl⟩
    · cases h
  | complete flight answers =>
    dsimp only [complete] at h
    split at h
    · split at h
      · cases h
        exact .inr <| .inr <| .inr <| .inr <| .inr <| .inr <| .inr <| .inr <| .inl
          ⟨flight, answers, rfl, ‹_›, ‹_›, rfl⟩
      · cases h
        exact .inr <| .inr <| .inr <| .inr <| .inr <| .inr <| .inr <| .inr <| .inr <| .inl
          ⟨flight, answers, _, rfl, ‹_›, ‹_›, rfl⟩
    · cases h
  | requeue req =>
    dsimp only [requeue, enqueue] at h
    split at h
    · split at h
      · cases h; exact .inl ⟨‹_›, rfl, .inr <| .inr <| .inl ⟨req, rfl, ‹_›⟩⟩
      · split at h
        · cases h
          exact .inr <| .inr <| .inr <| .inr <| .inr <| .inr <| .inr <| .inr <| .inr <| .inr <|
            .inl ⟨req, rfl, ‹_›, by simpa using ‹¬c.closed = true›, ‹_›, rfl⟩
        · cases h
    · cases h
  | stop =>
    dsimp only [Stop] at h
    split at h
    · cases h; exact .inl ⟨‹_›, rfl, .inr <| .inr <| .inr rfl⟩
    · cases h
      exact .inr <| .inr <| .inr <| .inr <| .inr <| .inr <| .inr <| .inr <| .inr <| .inr <|
        .inr <| .inl ⟨rfl, by simpa using ‹¬c.closed = true›, rfl⟩
  | cancel =>
    dsimp only at h
    cases h
    exact .inr <| .inr <| .inr <| .inr <| .inr <| .inr <| .inr <| .inr <| .inr <| .inr <|
      .inr <| .inr ⟨rfl, rfl⟩

/-- The loop's `request` on the request it holds: the answer `runTransaction` sends, or
the nonce it allocates and hands to a new goroutine. -/
theorem step_request {c c' : EthClient} {req : EthRequest}
    {pendingNonceAt : Nat → Option UInt64} (handling : c.loop = .handling req)
    (h : c.step (.request pendingNonceAt) = some c') :
    (∃ event, runTransaction c.nonce req pendingNonceAt = .answered event ∧
        c' = { c with loop := .selecting, handled := c.handled ++ [req.out],
                      replies := c.replies ++ [(req.out, event)] }) ∨
      ∃ nonce, runTransaction c.nonce req pendingNonceAt = .allocated nonce ∧
        c' = { c with loop := .selecting, handled := c.handled ++ [req.out], nonce := nonce + 1,
                      inFlight := c.inFlight ++ [⟨req, nonce⟩],
                      allocated := c.allocated ++ [(req.out, nonce)] } := by
  by_cases panicked : c.panicked = true
  · simp [step, panicked] at h
  rw [step.eq_def, if_neg panicked] at h
  dsimp only [request] at h
  rw [handling] at h
  dsimp only at h
  split at h <;> cases h
  · exact .inl ⟨_, ‹_›, rfl⟩
  · exact .inr ⟨_, ‹_›, rfl⟩

/-- The states of every run of the client from `dial`. -/
inductive Reachable : EthClient → Prop
  | dial : Reachable dial
  | step {c c' : EthClient} (label : Label) : Reachable c → c.step label = some c' →
      Reachable c'

/-- A run along a list of labels, none once a label cannot move. -/
def run (c : EthClient) : List Label → Option EthClient
  | [] => some c
  | label :: labels => (c.step label).bind (run · labels)

/-- A run from a reachable state ends in a reachable state. -/
theorem reachable_of_run {c c' : EthClient} :
    ∀ {labels : List Label}, Reachable c → c.run labels = some c' → Reachable c'
  | [], reach, h => by cases h; exact reach
  | label :: labels, reach, h => by
    cases moved : c.step label with
    | none => simp [run, moved] at h
    | some next =>
      simp only [run, moved, Option.bind_some] at h
      exact reachable_of_run (Reachable.step label reach moved) h

/-- A run from `dial` ending in a state with property `p` shows a reachable state with
it; `p` is decided on the run's last state. -/
theorem exists_reachable_of_run (labels : List Label) (p : EthClient → Bool)
    (h : (dial.run labels).map p = some true) : ∃ c, Reachable c ∧ p c = true := by
  cases ran : dial.run labels with
  | none => simp [ran] at h
  | some c =>
    simp only [ran, Option.map_some', Option.some.injEq] at h
    exact ⟨c, reachable_of_run .dial ran, h⟩

/-- An invariant: true of `dial` and kept by every step from a reachable state. -/
theorem Reachable.invariant (P : EthClient → Prop) (init : P EthClient.dial)
    (preserved : ∀ {c c' : EthClient} (label : Label), Reachable c → P c →
      c.step label = some c' → P c')
    {c : EthClient} (reach : Reachable c) : P c := by
  induction reach with
  | dial => exact init
  | step label reach moved ih => exact preserved label reach ih moved

end EthClient

end DeveloperGateway.Eth
