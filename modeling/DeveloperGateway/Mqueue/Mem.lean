/-
# The in-memory mailbox server

`Server` of `mqueue/mem` keeps the queue actor of each key in `workers` and serves every
request in one loop, `startLoop`: `insert` and `next` start the actor of a key that has
none, `retrieve` and `discard` answer for a key with no actor themselves, and the key an
actor sends on `doneCh` once it stops for idleness is removed by `removeWorker`. The
actor's code (`NewWorker`) is not part of these sources: what it sends on the `Out` of a
request forwarded to it is an input of the step that serves the request (`Worker`).

`Discard` waits for what arrives on `out` and then returns `nil`: the error the loop sends
for a key with no actor, like an error of the actor, never reaches its caller.
-/

import Mathlib.Data.Finset.Basic
import DeveloperGateway.Mqueue.Core

namespace DeveloperGateway.Mqueue.Mem

/-- The requests the loop receives on `inCh`: `insertWorkerRequest`,
`retrieveWorkerRequest`, `discardWorkerRequest` and `nextWorkerRequest`, each without its
`Out` channel. -/
inductive WorkerRequest
  | insert (key : String) (element : Element)
  | retrieve (key : String) (offset : UInt64) (count : Nat)
  | discard (key : String) (offset : UInt64)
  | next (key : String)
  deriving DecidableEq, Repr

/-- What a request's `Out` channel carries: an `error` (`none` for `nil`), a window, or
an offset. -/
def Reply : WorkerRequest → Type
  | .insert .. => Option String
  | .retrieve .. => Elements
  | .discard .. => Option String
  | .next _ => UInt64

/-- What the queue actor of a key sends on the `Out` of each request forwarded to it. -/
structure Worker where
  /-- The answer to `Worker.Insert`. -/
  insert : Element → Option String
  /-- The answer to `Worker.Retrieve`, for an offset and a count. -/
  retrieve : UInt64 → Nat → Elements
  /-- The answer to `Worker.Discard`, for an offset. -/
  discard : UInt64 → Option String
  /-- The answer to `Worker.Next`. -/
  next : UInt64

/-- The loop's state: the keys of `workers`, each with its queue actor running. -/
structure Server where
  workers : Finset String
  deriving DecidableEq

/-- `NewServer`: the loop started, with no actor. -/
def NewServer : Server := ⟨∅⟩

namespace Server

/-- The lookup `insert` and `next` share: the key's actor, or a new one from `NewWorker`
stored in `workers`. -/
def register (s : Server) (key : String) : Server :=
  if key ∈ s.workers then s else ⟨Insert.insert key s.workers⟩

/-- `Server.insert`: the key's actor, started if there is none, answers. -/
def insert (s : Server) (key : String) (element : Element) (worker : Worker) :
    Server × Option String :=
  (s.register key, worker.insert element)

/-- `Server.retrieve`: a key with no actor gets an empty window at offset `0`. -/
def retrieve (s : Server) (key : String) (offset : UInt64) (count : Nat) (worker : Worker) :
    Server × Elements :=
  if key ∈ s.workers then (s, worker.retrieve offset count) else (s, ⟨[], 0⟩)

/-- `Server.discard`: a key with no actor gets the loop's own error. -/
def discard (s : Server) (key : String) (offset : UInt64) (worker : Worker) :
    Server × Option String :=
  if key ∈ s.workers then (s, worker.discard offset)
  else (s, some "attempt to discard queue that does not exist")

/-- `Server.next`: the key's actor, started if there is none, answers. -/
def next (s : Server) (key : String) (worker : Worker) : Server × UInt64 :=
  (s.register key, worker.next)

/-- `Server.serveRequest`: each request to its handler, with what is sent on its `Out`. -/
def serveRequest (s : Server) : (req : WorkerRequest) → Worker → Server × Reply req
  | .insert key element, worker => s.insert key element worker
  | .retrieve key offset count, worker => s.retrieve key offset count worker
  | .discard key offset, worker => s.discard key offset worker
  | .next key, worker => s.next key worker

/-- `Server.removeWorker`: the actor of a key received on `doneCh` is stopped and deleted;
a key with no actor is only logged. -/
def removeWorker (s : Server) (key : String) : Server :=
  if key ∈ s.workers then ⟨s.workers.erase key⟩ else s

/-- `Server.Insert`: the caller returns what arrives on `out`. -/
def Insert (s : Server) (key : String) (element : Element) (worker : Worker) :
    Server × Option String :=
  s.serveRequest (.insert key element) worker

/-- `Server.Retrieve`: the window that arrives on `out`, and `nil`. -/
def Retrieve (s : Server) (key : String) (offset : UInt64) (count : Nat) (worker : Worker) :
    Server × Elements × Option String :=
  let (s, out) := s.serveRequest (.retrieve key offset count) worker
  (s, out, none)

/-- `Server.Discard`: the caller waits for what arrives on `out`, then returns `nil`. -/
def Discard (s : Server) (key : String) (offset : UInt64) (worker : Worker) :
    Server × Option String :=
  let (s, _) := s.serveRequest (.discard key offset) worker
  (s, none)

/-- `Server.Next`: the offset that arrives on `out`, and `nil`. -/
def Next (s : Server) (key : String) (worker : Worker) : Server × UInt64 × Option String :=
  let (s, out) := s.serveRequest (.next key) worker
  (s, out, none)

end Server

/-- What the loop's `select` takes: a request of a caller of `Insert`, `Retrieve`,
`Discard` or `Next`, served with what the key's actor answers; or a key on `doneCh`, from
an actor that stopped for idleness. -/
inductive Event
  | serve (req : WorkerRequest) (worker : Worker)
  | done (key : String)

namespace Server

/-- One iteration of the loop. -/
def step (s : Server) : Event → Server
  | .serve req worker => (s.serveRequest req worker).1
  | .done key => s.removeWorker key

/-- The loop over a history of events, oldest first. -/
def run (s : Server) : List Event → Server
  | [] => s
  | event :: events => (s.step event).run events

/-- `insert` and `next` add their key to `workers`. -/
@[simp]
theorem register_workers (s : Server) (key : String) :
    (s.register key).workers = Insert.insert key s.workers := by
  unfold register
  split
  · exact (Finset.insert_eq_of_mem ‹_›).symm
  · rfl

/-- `retrieve` starts no actor. -/
@[simp]
theorem retrieve_server (s : Server) (key : String) (offset : UInt64) (count : Nat)
    (worker : Worker) : (s.retrieve key offset count worker).1 = s := by
  unfold retrieve
  split <;> rfl

/-- `discard` starts no actor. -/
@[simp]
theorem discard_server (s : Server) (key : String) (offset : UInt64) (worker : Worker) :
    (s.discard key offset worker).1 = s := by
  unfold discard
  split <;> rfl

/-- `removeWorker` takes its key out of `workers`. -/
@[simp]
theorem removeWorker_workers (s : Server) (key : String) :
    (s.removeWorker key).workers = s.workers.erase key := by
  unfold removeWorker
  split
  · rfl
  · exact (Finset.erase_eq_of_not_mem ‹_›).symm

/-- What one iteration does to the actors: a key has one after it when the iteration
served an `Insert` or a `Next` of it, or when it had one and the iteration was not its
eviction. -/
theorem mem_step_workers (s : Server) (event : Event) (key : String) :
    key ∈ (s.step event).workers ↔
      (∃ req worker, event = .serve req worker ∧
        ((∃ element, req = .insert key element) ∨ req = .next key)) ∨
      (key ∈ s.workers ∧ event ≠ .done key) := by
  cases event with
  | serve req worker =>
    cases req <;> simp [step, serveRequest, insert, next, eq_comm]
  | done other =>
    simp [step, and_comm, eq_comm]

/-- What a history does to the actors: a key has one after it when an `Insert` or a `Next`
of it was served with no eviction of it since, or when it had one and was never evicted. -/
theorem mem_run_workers (key : String) :
    ∀ (s : Server) (events : List Event), key ∈ (s.run events).workers ↔
      (∃ pre req worker post, events = pre ++ .serve req worker :: post ∧
        ((∃ element, req = .insert key element) ∨ req = .next key) ∧
        ∀ event ∈ post, event ≠ .done key) ∨
      (key ∈ s.workers ∧ ∀ event ∈ events, event ≠ .done key)
  | s, [] => by simp [run]
  | s, event :: events => by
    have later : (∃ pre req worker post, event :: events = pre ++ .serve req worker :: post ∧
          ((∃ element, req = .insert key element) ∨ req = .next key) ∧
          ∀ event ∈ post, event ≠ .done key) ↔
        ((∃ req worker, event = .serve req worker ∧
            ((∃ element, req = .insert key element) ∨ req = .next key)) ∧
          ∀ event ∈ events, event ≠ .done key) ∨
        ∃ pre req worker post, events = pre ++ .serve req worker :: post ∧
          ((∃ element, req = .insert key element) ∨ req = .next key) ∧
          ∀ event ∈ post, event ≠ .done key := by
      constructor
      · rintro ⟨_ | ⟨first, pre⟩, req, worker, post, same, created, after⟩
        · obtain ⟨rfl, rfl⟩ := List.cons.inj same
          exact .inl ⟨⟨req, worker, rfl, created⟩, after⟩
        · obtain ⟨rfl, rfl⟩ := List.cons.inj same
          exact .inr ⟨pre, req, worker, post, rfl, created, after⟩
      · rintro (⟨⟨req, worker, rfl, created⟩, after⟩ | ⟨pre, req, worker, post, rfl, created, after⟩)
        · exact ⟨[], req, worker, events, rfl, created, after⟩
        · exact ⟨event :: pre, req, worker, post, rfl, created, after⟩
    rw [run, mem_run_workers key, mem_step_workers, later, List.forall_mem_cons]
    constructor
    · rintro (since | ⟨created | ⟨held, kept⟩, after⟩)
      exacts [.inl (.inr since), .inl (.inl ⟨created, after⟩), .inr ⟨held, kept, after⟩]
    · rintro ((⟨created, after⟩ | since) | ⟨held, kept, after⟩)
      exacts [.inr ⟨.inl created, after⟩, .inl since, .inr ⟨.inr ⟨held, kept⟩, after⟩]

/-- What the loop's `discard` sends on `out`: an error exactly when the key has no actor,
or its actor reports one. -/
theorem discard_reply (s : Server) (key : String) (offset : UInt64) (worker : Worker) :
    (s.discard key offset worker).2 ≠ none ↔ key ∉ s.workers ∨ worker.discard offset ≠ none := by
  unfold discard
  split <;> simp [*]

/-- From every state a history of requests and evictions leads to, `Discard` returns `nil`
and starts no actor, whatever arrives on `out`. What the loop sends there is an error
exactly when the key has no actor, because no `Insert` or `Next` of it was served since its
last eviction, or when its actor reports one; and `Retrieve` starts no actor either. -/
theorem Discard_returns_nil (events : List Event) (key : String) (offset : UInt64)
    (count : Nat) (worker : Worker) :
    (NewServer.run events).Discard key offset worker = (NewServer.run events, none) ∧
    (((NewServer.run events).discard key offset worker).2 ≠ none ↔
      (¬ ∃ pre req answers post, events = pre ++ .serve req answers :: post ∧
          ((∃ element, req = .insert key element) ∨ req = .next key) ∧
          ∀ event ∈ post, event ≠ .done key) ∨
        worker.discard offset ≠ none) ∧
    ((NewServer.run events).Retrieve key offset count worker).1 = NewServer.run events := by
  refine ⟨by simp [Discard, serveRequest], ?_, by simp [Retrieve, serveRequest]⟩
  rw [discard_reply, mem_run_workers]
  simp only [NewServer, Finset.not_mem_empty, false_and, or_false]

/-- A fresh server: the loop answers `Discard` of a key with its error, and the caller
gets `nil`. -/
example : NewServer.Discard "k" 0 ⟨fun _ => none, fun _ _ => ⟨[], 0⟩, fun _ => none, 0⟩ =
      (NewServer, none) ∧
    (NewServer.discard "k" 0 ⟨fun _ => none, fun _ _ => ⟨[], 0⟩, fun _ => none, 0⟩).2 =
      some "attempt to discard queue that does not exist" :=
  ⟨rfl, rfl⟩

end Server

end DeveloperGateway.Mqueue.Mem
