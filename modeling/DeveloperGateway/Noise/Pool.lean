/-
# The fixed connection pool of `noise`

`DialFixedPool` dials `Conns` connections one after another and starts a loop on the
pool's channel for each. When a dial fails it cancels the pool's context and returns
the error at once: the loops already started return when they next see the context
done, but the connections they serve are never closed, since nothing in `noise` closes
a `Conn` (the `TODO` of `dialConnection` says as much).

`Request` sends its request on the pool's channel, which buffers 64, and waits for the
error the connection loop that receives it sends back. The loops receive the requests in
the order they were sent, and each request received is answered once, by the loop that
received it. A pool with no loop running, as `DialFixedPool` returns for `Conns` below one
or as the loops leave it once they have all seen the context done, answers no request any
more: its callers wait for ever.
-/

import Mathlib.Data.List.Range
import Mathlib.Data.List.Nodup

namespace DeveloperGateway.Noise

/-- What the dialling leaves behind: the connections established, by index, each still
open; the connection loops running on the pool's channel; and whether the pool's
context is cancelled. -/
structure Dialled where
  conns : List Nat
  loops : List Nat
  cancelled : Bool
  deriving DecidableEq, Repr

/-- `dialConnection`: `DialContext` for the connection of index `i`, then
`go startConnLoop` on the pool's channel. -/
def dialConnection (s : Dialled) (dialContext : Nat → Except String Unit) (i : Nat) :
    Except String Dialled :=
  match dialContext i with
  | .error err => .error err
  | .ok () => .ok { s with conns := s.conns ++ [i], loops := s.loops ++ [i] }

/-- The `for` loop of `DialFixedPool` over the indices left to dial: a failed dial
calls `cancel()` and returns its error. -/
def dialAll (dialContext : Nat → Except String Unit) :
    List Nat → Dialled → Except String Unit × Dialled
  | [], s => (.ok (), s)
  | i :: rest, s =>
    match dialConnection s dialContext i with
    | .error err => (.error err, { s with cancelled := true })
    | .ok s' => dialAll dialContext rest s'

/-- `DialFixedPool`: the pool, given by `.ok ()` for its channel, or the error of the
first dial that failed; with what the dialling left behind. -/
def DialFixedPool (conns : Int) (dialContext : Nat → Except String Unit) :
    Except String Unit × Dialled :=
  dialAll dialContext (List.range conns.toNat) ⟨[], [], false⟩

/-- Dials that all succeed open one connection and start one loop each, in order. -/
theorem dialAll_append_of_ok {dialContext : Nat → Except String Unit} {dialled : List Nat}
    (ok : ∀ i ∈ dialled, dialContext i = .ok ()) (rest : List Nat) (s : Dialled) :
    dialAll dialContext (dialled ++ rest) s =
      dialAll dialContext rest
        { s with conns := s.conns ++ dialled, loops := s.loops ++ dialled } := by
  induction dialled generalizing s with
  | nil => simp
  | cons i dialled ih =>
    have opened : dialContext i = .ok () := ok i (List.mem_cons_self _ _)
    rw [List.cons_append, dialAll.eq_2]
    simp only [dialConnection, opened]
    rw [ih (fun j mem => ok j (List.mem_cons_of_mem _ mem))]
    simp

/-- A failed dial stops the loop: the context is cancelled and nothing is closed. -/
theorem dialAll_cons_of_error {dialContext : Nat → Except String Unit} {i : Nat}
    {err : String} (failed : dialContext i = .error err) (rest : List Nat) (s : Dialled) :
    dialAll dialContext (i :: rest) s = (.error err, { s with cancelled := true }) := by
  simp [dialAll, dialConnection, failed]

/-- When every dial succeeds, the pool is returned with exactly `Conns` loops on its
channel (none for a `Conns` below one), and its context is not cancelled. -/
theorem DialFixedPool_ok {conns : Int} {dialContext : Nat → Except String Unit}
    (ok : ∀ i < conns.toNat, dialContext i = .ok ()) :
    DialFixedPool conns dialContext =
      (.ok (), ⟨List.range conns.toNat, List.range conns.toNat, false⟩) := by
  have all := dialAll_append_of_ok (fun i mem => ok i (List.mem_range.1 mem)) []
    ⟨[], [], false⟩
  simpa [DialFixedPool, dialAll] using all

/-- When the dial of index `k` is the first to fail, `DialFixedPool` returns its error
with the `k` connections dialled before it still open, their `k` loops still running
on a cancelled context. -/
theorem DialFixedPool_error {conns : Int} {dialContext : Nat → Except String Unit}
    {k : Nat} {err : String} (below : k < conns.toNat)
    (ok : ∀ i < k, dialContext i = .ok ()) (failed : dialContext k = .error err) :
    DialFixedPool conns dialContext = (.error err, ⟨List.range k, List.range k, true⟩) := by
  have split : List.range conns.toNat =
      List.range k ++ k :: List.range' (k + 1) (conns.toNat - k - 1) := by
    have joined := List.range'_append 0 k (conns.toNat - k - 1 + 1) 1
    rw [Nat.zero_add, Nat.one_mul] at joined
    rw [List.range_eq_range', List.range_eq_range', ← List.range'_succ, joined]
    congr 1
    omega
  rw [DialFixedPool, split, dialAll_append_of_ok (fun i mem => ok i (List.mem_range.1 mem)),
    dialAll_cons_of_error failed]
  simp

/-- `startConnLoop` for the connection of index `i` once the context is done: the loop
returns, and its connection stays open. -/
def connLoopReturn (s : Dialled) (i : Nat) : Option Dialled :=
  if s.cancelled ∧ i ∈ s.loops then some { s with loops := s.loops.erase i } else none

/-- A loop returns only on a cancelled context, and never closes its connection. -/
theorem connLoopReturn_conns {s s' : Dialled} {i : Nat} (h : connLoopReturn s i = some s') :
    s.cancelled = true ∧ i ∈ s.loops ∧ s'.conns = s.conns := by
  unfold connLoopReturn at h
  split at h
  · cases h; exact ⟨‹_ ∧ _›.1, ‹_ ∧ _›.2, rfl⟩
  · cases h

/-- The returns of the loops, one index after another. -/
def connLoopsReturn (s : Dialled) : List Nat → Option Dialled
  | [] => some s
  | i :: rest => (connLoopReturn s i).bind (connLoopsReturn · rest)

/-- However many loops return, the connections stay as they were: open. -/
theorem connLoopsReturn_conns {s s' : Dialled} :
    ∀ {indices : List Nat}, connLoopsReturn s indices = some s' → s'.conns = s.conns
  | [], h => by cases h; rfl
  | i :: rest, h => by
    cases returned : connLoopReturn s i with
    | none => simp [connLoopsReturn, returned] at h
    | some s₁ =>
      simp only [connLoopsReturn, returned, Option.some_bind] at h
      exact (connLoopsReturn_conns h).trans (connLoopReturn_conns returned).2.2

/-- Whatever the pool's size and whichever dial fails first, at index `k`, `DialFixedPool`
returns that dial's error with the `k` connections dialled before it open and their `k` loops
running on a cancelled context; and however many of the loops return after, not one of the
connections is closed. -/
theorem failed_dial_keeps_connections {conns : Int} {dialContext : Nat → Except String Unit}
    {k : Nat} {err : String} (below : k < conns.toNat) (ok : ∀ i < k, dialContext i = .ok ())
    (failed : dialContext k = .error err) :
    DialFixedPool conns dialContext = (.error err, ⟨List.range k, List.range k, true⟩) ∧
      ∀ indices s', connLoopsReturn ⟨List.range k, List.range k, true⟩ indices = some s' →
        s'.conns = List.range k :=
  ⟨DialFixedPool_error below ok failed, fun _ _ returned => connLoopsReturn_conns returned⟩

/-- A pool of three connections whose third dial times out: two stay open. -/
theorem failed_dial_keeps_connections_third :
    2 < (3 : Int).toNat ∧
      (∀ i < 2, (fun i => if i < 2 then .ok () else .error "i/o timeout" :
        Nat → Except String Unit) i = .ok ()) ∧
      (fun i => if i < 2 then .ok () else .error "i/o timeout" : Nat → Except String Unit) 2 =
        .error "i/o timeout" ∧
      DialFixedPool 3 (fun i => if i < 2 then .ok () else .error "i/o timeout") =
        (.error "i/o timeout", ⟨List.range 2, List.range 2, true⟩) ∧
      ∀ indices s', connLoopsReturn ⟨List.range 2, List.range 2, true⟩ indices = some s' →
        s'.conns = List.range 2 :=
  have ok : ∀ i < 2, (fun i => if i < 2 then .ok () else .error "i/o timeout" :
      Nat → Except String Unit) i = .ok () := fun i below => by simp [below]
  ⟨by decide, ok, rfl, failed_dial_keeps_connections (by decide) ok rfl⟩

/-- A pool of two connections whose second dial is refused: `DialFixedPool` returns the
error with the first connection open, and once its loop has returned the connection is
open still. -/
theorem failed_dial_leaves_connection_open :
    DialFixedPool 2 (fun i => if i = 0 then .ok () else .error "connection refused") =
      (.error "connection refused", ⟨[0], [0], true⟩) ∧
    connLoopsReturn ⟨[0], [0], true⟩ [0] = some ⟨[0], [], true⟩ :=
  ⟨rfl, rfl⟩

/-! ## Requests on the pool -/

/-- The pool `DialFixedPool` returned and the goroutines around it: the callers of
`Request`, whose requests wait in the buffer of the pool's channel until a connection loop
receives one, and the loops of `startConnLoop`, each in its `select` or serving the request it
received. Besides, what the outside sees: the requests in the order the loops received them,
and what each caller received on its `Error` channel. -/
structure Pool where
  /-- The calls of `Request` so far; call `i` owns the error channel `i`. -/
  calls : Nat
  /-- The requests buffered in `p.c`, by call, oldest first. -/
  queue : List Nat
  /-- The loops still running: the index of each one's connection, and the call whose
  request it serves, if any. -/
  loops : List (Nat × Option Nat)
  /-- The pool's context is done. -/
  cancelled : Bool
  /-- The calls whose requests the loops received, in the order they received them. -/
  taken : List Nat
  /-- What each answered call received on its error channel: the call, the connection that
  served it, and the error of `conn.Request` (`none` for `nil`). -/
  answers : List (Nat × Nat × Option String)
  deriving DecidableEq, Repr

/-- What moves in one step of the pool. -/
inductive Label
  /-- A caller of `Request` sends its request on `p.c`. -/
  | request
  /-- The loop at position `k` receives the oldest buffered request in its `select`. -/
  | receive (k : Nat)
  /-- The loop at position `k` gets `result` from `conn.Request` and sends it on the caller's
  error channel, where the caller waits. -/
  | answer (k : Nat) (result : Option String)
  /-- The loop at position `k` takes `ctx.Done` in its `select` and returns. -/
  | done (k : Nat)
  /-- The pool's context is cancelled. -/
  | cancel

namespace Pool

/-- The pool `DialFixedPool` returns, with the loops it started, each in its `select`. -/
def ofDialled (s : Dialled) : Pool :=
  ⟨0, [], s.loops.map (·, none), s.cancelled, [], []⟩

/-- One step of the pool; none when the label cannot move. A send on the channel blocks while
64 requests are buffered; a loop in its `select` may take a buffered request even once the
context is done. -/
def step (p : Pool) : Label → Option Pool
  | .request =>
    if p.queue.length < 64 then
      some { p with calls := p.calls + 1, queue := p.queue ++ [p.calls] }
    else none
  | .receive k =>
    match p.loops[k]?, p.queue with
    | some (conn, none), call :: rest =>
      some { p with queue := rest, loops := p.loops.set k (conn, some call),
                    taken := p.taken ++ [call] }
    | _, _ => none
  | .answer k result =>
    match p.loops[k]? with
    | some (conn, some call) =>
      some { p with loops := p.loops.set k (conn, none),
                    answers := p.answers ++ [(call, conn, result)] }
    | _ => none
  | .done k =>
    match p.loops[k]? with
    | some (_, none) => if p.cancelled then some { p with loops := p.loops.eraseIdx k } else none
    | _ => none
  | .cancel => some { p with cancelled := true }

/-- A run along a list of labels, none once a label cannot move. -/
def run (p : Pool) : List Label → Option Pool
  | [] => some p
  | label :: labels => (p.step label).bind (run · labels)

/-- The states of every run of the pool from what `DialFixedPool` left. -/
inductive Reachable (s : Dialled) : Pool → Prop
  | init : Reachable s (ofDialled s)
  | step {p p' : Pool} (label : Label) : Reachable s p → p.step label = some p' → Reachable s p'

/-- Every move of the pool, with its guard and the state it leads to. -/
theorem step_cases {p p' : Pool} {label : Label} (h : p.step label = some p') :
    (label = .request ∧ p.queue.length < 64 ∧
      p' = { p with calls := p.calls + 1, queue := p.queue ++ [p.calls] }) ∨
    (∃ k conn call rest, label = .receive k ∧ p.loops[k]? = some (conn, none) ∧
      p.queue = call :: rest ∧
      p' = { p with queue := rest, loops := p.loops.set k (conn, some call),
                    taken := p.taken ++ [call] }) ∨
    (∃ k result conn call, label = .answer k result ∧ p.loops[k]? = some (conn, some call) ∧
      p' = { p with loops := p.loops.set k (conn, none),
                    answers := p.answers ++ [(call, conn, result)] }) ∨
    (∃ k conn, label = .done k ∧ p.loops[k]? = some (conn, none) ∧ p.cancelled = true ∧
      p' = { p with loops := p.loops.eraseIdx k }) ∨
    (label = .cancel ∧ p' = { p with cancelled := true }) := by
  cases label with
  | request =>
    simp only [step] at h
    split at h
    · cases h; exact .inl ⟨rfl, ‹_›, rfl⟩
    · cases h
  | receive k =>
    simp only [step] at h
    split at h
    · cases h; exact .inr <| .inl ⟨k, _, _, _, rfl, ‹_›, ‹_›, rfl⟩
    · cases h
  | answer k result =>
    simp only [step] at h
    split at h
    · cases h; exact .inr <| .inr <| .inl ⟨k, result, _, _, rfl, ‹_›, rfl⟩
    · cases h
  | done k =>
    simp only [step] at h
    split at h
    · split at h
      · cases h; exact .inr <| .inr <| .inr <| .inl ⟨k, _, rfl, ‹_›, ‹_›, rfl⟩
      · cases h
    · cases h
  | cancel =>
    cases h
    exact .inr <| .inr <| .inr <| .inr ⟨rfl, rfl⟩

/-- A run from a reachable state ends in a reachable state. -/
theorem Reachable.run {s : Dialled} {p p' : Pool} :
    ∀ {labels : List Label}, Reachable s p → p.run labels = some p' → Reachable s p'
  | [], reach, ran => by cases ran; exact reach
  | label :: labels, reach, ran => by
    cases moved : p.step label with
    | none => simp [Pool.run, moved] at ran
    | some next =>
      simp only [Pool.run, moved, Option.bind_some] at ran
      exact Reachable.run (.step label reach moved) ran

/-- The calls whose requests the loops are serving. -/
def serving (loops : List (Nat × Option Nat)) : List Nat := loops.filterMap (·.2)

/-- What loops serve, one after another. -/
theorem serving_append (l l' : List (Nat × Option Nat)) :
    serving (l ++ l') = serving l ++ serving l' :=
  List.filterMap_append l l' _

/-- What a loop serves, then what the others serve. -/
theorem serving_cons (x : Nat × Option Nat) (l : List (Nat × Option Nat)) :
    serving (x :: l) = x.2.toList ++ serving l := by
  obtain ⟨conn, _ | call⟩ := x <;> rfl

/-- The loop found at position `k` splits the loops around it. -/
theorem eq_take_cons_drop {l : List (Nat × Option Nat)} {k : Nat} {x : Nat × Option Nat}
    (found : l[k]? = some x) : l = l.take k ++ x :: l.drop (k + 1) := by
  obtain ⟨below, rfl⟩ := List.getElem?_eq_some_iff.1 found
  rw [List.getElem_cons_drop, List.take_append_drop]

/-- Changing the loop at position `k` changes what it serves and nothing else. -/
theorem serving_set {l : List (Nat × Option Nat)} {k : Nat} {x : Nat × Option Nat}
    (found : l[k]? = some x) (y : Nat × Option Nat) :
    (serving (l.set k y) ++ x.2.toList).Perm (serving l ++ y.2.toList) := by
  rw [List.set_eq_take_cons_drop y (List.getElem?_eq_some_iff.1 found).1]
  conv_rhs => rw [eq_take_cons_drop found]
  simp only [serving_append, serving_cons]
  exact List.perm_iff_count.2 fun c => by simp only [List.count_append]; omega

/-- A loop that returns takes what it serves with it. -/
theorem serving_eraseIdx {l : List (Nat × Option Nat)} {k : Nat} {x : Nat × Option Nat}
    (found : l[k]? = some x) : (serving (l.eraseIdx k) ++ x.2.toList).Perm (serving l) := by
  rw [List.eraseIdx_eq_take_drop_succ]
  conv_rhs => rw [eq_take_cons_drop found]
  simp only [serving_append, serving_cons]
  exact List.perm_iff_count.2 fun c => by simp only [List.count_append]; omega

/-- Every request sent is accounted for: the requests the loops received, in the order they
received them, followed by those still buffered, are the calls in the order they were made;
each request received is served by exactly one loop or was answered once; and the channel
holds at most 64. -/
structure Accounted (p : Pool) : Prop where
  ordered : p.taken ++ p.queue = List.range p.calls
  served : (p.answers.map (·.1) ++ serving p.loops).Perm p.taken
  bounded : p.queue.length ≤ 64

/-- A step keeps every request accounted for. -/
theorem Accounted.step {p p' : Pool} {label : Label} (inv : Accounted p)
    (h : p.step label = some p') : Accounted p' := by
  have served := inv.served.count_eq
  rcases step_cases h with ⟨-, room, rfl⟩ | ⟨k, conn, call, rest, -, found, queued, rfl⟩ |
    ⟨k, result, conn, call, -, found, rfl⟩ | ⟨k, conn, -, found, -, rfl⟩ | ⟨-, rfl⟩
  · refine ⟨by rw [List.range_succ, ← inv.ordered, List.append_assoc], inv.served, ?_⟩
    simp only [List.length_append, List.length_singleton]
    omega
  · have moved := (serving_set found (conn, some call)).count_eq
    refine ⟨by rw [List.append_assoc, List.singleton_append, ← queued, inv.ordered],
      List.perm_iff_count.2 fun c => ?_, ?_⟩
    · have := moved c
      have := served c
      simp only [List.count_append, Option.toList_none, Option.toList_some, List.count_nil]
        at *
      omega
    · show rest.length ≤ 64
      have := inv.bounded
      rw [queued, List.length_cons] at this
      omega
  · have moved := (serving_set found (conn, none)).count_eq
    refine ⟨inv.ordered, List.perm_iff_count.2 fun c => ?_, inv.bounded⟩
    have := moved c
    have := served c
    simp only [List.map_append, List.map_singleton, List.count_append, Option.toList_none,
      Option.toList_some, List.count_nil] at *
    omega
  · have moved := (serving_eraseIdx found).count_eq
    refine ⟨inv.ordered, List.perm_iff_count.2 fun c => ?_, inv.bounded⟩
    have := moved c
    have := served c
    simp only [List.count_append, Option.toList_none, List.count_nil] at *
    omega
  · exact ⟨inv.ordered, inv.served, inv.bounded⟩

/-- Every reachable state of the pool accounts for every request. -/
theorem accounted_of_reachable {s : Dialled} {p : Pool} (reach : Reachable s p) : Accounted p := by
  induction reach with
  | init => exact ⟨rfl, by simp [ofDialled, serving, List.filterMap_map, Function.comp_def], by
      simp [ofDialled]⟩
  | step _ _ moved inv => exact inv.step moved

/-- In every run of the pool the connection loops receive the requests in the order their
callers sent them, and each request received is served by exactly one loop until it is
answered, once: no request is lost or served twice, an answer goes only to a caller that sent
a request, and no caller is answered twice. -/
theorem requests_taken_in_order {s : Dialled} {p : Pool} (reach : Reachable s p) :
    p.taken ++ p.queue = List.range p.calls ∧
      (p.answers.map (·.1) ++ serving p.loops).Perm p.taken ∧
      (p.answers.map (·.1)).Nodup ∧ ∀ answer ∈ p.answers, answer.1 < p.calls := by
  obtain ⟨ordered, served, -⟩ := accounted_of_reachable reach
  have taken : p.taken.Nodup :=
    (List.nodup_range p.calls).sublist (ordered ▸ List.sublist_append_left _ _)
  refine ⟨ordered, served, (List.nodup_append.1 (served.nodup_iff.2 taken)).1,
    fun answer mem => ?_⟩
  have held : answer.1 ∈ p.taken :=
    served.subset (List.mem_append_left _ (List.mem_map_of_mem _ mem))
  rw [← List.mem_range, ← ordered]
  exact List.mem_append_left _ held

/-- One connection: two requests sent, the first received and answered with `nil`. -/
theorem requests_taken_in_order_one_conn :
    Reachable ⟨[0], [0], false⟩ ⟨2, [1], [(0, none)], false, [0], [(0, 0, none)]⟩ ∧
      [0] ++ [1] = List.range 2 ∧
      ([((0 : Nat), (0 : Nat), (none : Option String))].map (·.1) ++
        serving [((0 : Nat), (none : Option Nat))]).Perm [0] ∧
      ([((0 : Nat), (0 : Nat), (none : Option String))].map (·.1)).Nodup ∧
      ∀ answer ∈ [((0 : Nat), (0 : Nat), (none : Option String))], answer.1 < 2 :=
  have reach : Reachable ⟨[0], [0], false⟩ ⟨2, [1], [(0, none)], false, [0], [(0, 0, none)]⟩ :=
    .step (.answer 0 none) (.step (.receive 0) (.step .request (.step .request .init rfl) rfl)
      rfl) rfl
  ⟨reach, requests_taken_in_order reach⟩

/-- A step of a pool with no loop running leaves it with none, and receives and answers no
request: a request sent is buffered after the others. -/
theorem step_without_loops {p p' : Pool} {label : Label} (idle : p.loops = [])
    (h : p.step label = some p') :
    p'.loops = [] ∧ p'.taken = p.taken ∧ p'.answers = p.answers ∧ p.queue <+: p'.queue := by
  rcases step_cases h with ⟨-, -, rfl⟩ | ⟨k, conn, call, rest, -, found, -, -⟩ |
    ⟨k, result, conn, call, -, found, -⟩ | ⟨k, conn, -, found, -, -⟩ | ⟨-, rfl⟩
  · exact ⟨idle, rfl, rfl, List.prefix_append _ _⟩
  all_goals first | simp [idle] at found | exact ⟨idle, rfl, rfl, List.prefix_refl _⟩

/-- A run of a pool with no loop running receives and answers no request. -/
theorem run_without_loops {p p' : Pool} (idle : p.loops = []) :
    ∀ {labels : List Label}, p.run labels = some p' →
      p'.loops = [] ∧ p'.taken = p.taken ∧ p'.answers = p.answers ∧ p.queue <+: p'.queue
  | [], ran => by cases ran; exact ⟨idle, rfl, rfl, List.prefix_refl _⟩
  | label :: labels, ran => by
    cases moved : p.step label with
    | none => simp [Pool.run, moved] at ran
    | some next =>
      simp only [Pool.run, moved, Option.bind_some] at ran
      obtain ⟨stillIdle, taken, answers, buffered⟩ := step_without_loops idle moved
      obtain ⟨finalIdle, taken', answers', buffered'⟩ := run_without_loops stillIdle ran
      exact ⟨finalIdle, taken'.trans taken, answers'.trans answers, buffered.trans buffered'⟩

/-- Once no connection loop runs, as after every loop has taken `ctx.Done`, no run of the pool
receives or answers a request any more: every request buffered stays buffered, in order, and
its caller waits on its error channel for ever. -/
theorem stranded_without_loops {s : Dialled} {p : Pool} (reach : Reachable s p)
    (idle : p.loops = []) {labels : List Label} {p' : Pool} (ran : p.run labels = some p') :
    p'.taken = p.taken ∧ p'.answers = p.answers ∧ p.queue <+: p'.queue ∧
      ∀ call ∈ p.queue, ∀ answer ∈ p'.answers, answer.1 ≠ call := by
  obtain ⟨-, taken, answers, buffered⟩ := run_without_loops idle ran
  refine ⟨taken, answers, buffered, fun call queued answer mem same => ?_⟩
  obtain ⟨ordered, served, -⟩ := accounted_of_reachable reach
  have nodup : (p.taken ++ p.queue).Nodup := ordered ▸ List.nodup_range p.calls
  have held : call ∈ p.taken := served.subset (List.mem_append_left _ (same ▸
    List.mem_map_of_mem _ (answers ▸ mem)))
  exact List.disjoint_of_nodup_append nodup held queued

/-- A pool of one connection: a request is sent, the context is cancelled and the loop
returns; the request stays buffered, unanswered, while further requests are sent. -/
theorem stranded_after_cancel :
    Reachable ⟨[0], [0], false⟩ ⟨1, [0], [], true, [], []⟩ ∧
      (⟨1, [0], [], true, [], []⟩ : Pool).loops = [] ∧
      (⟨1, [0], [], true, [], []⟩ : Pool).run [.request, .request] =
        some ⟨3, [0, 1, 2], [], true, [], []⟩ ∧
      ([] : List Nat) = [] ∧ ([] : List (Nat × Nat × Option String)) = [] ∧ [0] <+: [0, 1, 2] ∧
      ∀ call ∈ [0], ∀ answer ∈ ([] : List (Nat × Nat × Option String)), answer.1 ≠ call :=
  have reach : Reachable ⟨[0], [0], false⟩ ⟨1, [0], [], true, [], []⟩ :=
    .step (.done 0) (.step .cancel (.step .request .init rfl) rfl) rfl
  have ran : (⟨1, [0], [], true, [], []⟩ : Pool).run [.request, .request] =
      some ⟨3, [0, 1, 2], [], true, [], []⟩ := rfl
  ⟨reach, rfl, ran, stranded_without_loops reach rfl ran⟩

/-- Some run from `p` sends a result on the error channel of `call`. -/
def Answerable (p : Pool) (call : Nat) : Prop :=
  ∃ labels p', p.run labels = some p' ∧ ∃ conn result, (call, conn, result) ∈ p'.answers

/-- A call answerable after one step is answerable before it. -/
theorem Answerable.of_step {p p' : Pool} {label : Label} {call : Nat}
    (moved : p.step label = some p') (later : Answerable p' call) : Answerable p call := by
  obtain ⟨labels, p'', ran, answered⟩ := later
  exact ⟨label :: labels, p'', by simp only [Pool.run, moved, Option.some_bind, ran], answered⟩

/-- The loop at position `k` answers the request it serves, with `nil` from `conn.Request`. -/
theorem answer_step {p : Pool} {k conn call : Nat} (found : p.loops[k]? = some (conn, some call)) :
    p.step (.answer k none) = some { p with loops := p.loops.set k (conn, none),
                                            answers := p.answers ++ [(call, conn, none)] } := by
  simp [step, found]

/-- The loop at position `k`, in its `select`, receives the oldest buffered request. -/
theorem receive_step {p : Pool} {k conn call : Nat} {rest : List Nat}
    (found : p.loops[k]? = some (conn, none)) (queued : p.queue = call :: rest) :
    p.step (.receive k) = some { p with queue := rest, loops := p.loops.set k (conn, some call),
                                        taken := p.taken ++ [call] } := by
  simp [step, found, queued]

/-- A request being served is answerable: its loop answers it. -/
theorem answerable_of_serving {p : Pool} {k conn call : Nat}
    (found : p.loops[k]? = some (conn, some call)) : Answerable p call :=
  .of_step (answer_step found)
    ⟨[], _, rfl, conn, none, List.mem_append_right _ (List.mem_singleton_self _)⟩

/-- A buffered request is answerable by a loop in its `select`: the loop receives and answers
every request before it, in order, and then this one. -/
theorem answerable_of_queued {k conn call : Nat} :
    ∀ {queue : List Nat} {p : Pool}, p.queue = queue → p.loops[k]? = some (conn, none) →
      call ∈ queue → Answerable p call
  | [], _, _, _, queued => absurd queued (List.not_mem_nil _)
  | first :: rest, p, buffered, found, queued => by
    have below : k < p.loops.length := (List.getElem?_eq_some_iff.1 found).1
    have serving : (p.loops.set k (conn, some first))[k]? = some (conn, some first) := by
      simp [below]
    refine .of_step (receive_step found buffered) ?_
    rcases List.mem_cons.1 queued with rfl | later
    · exact answerable_of_serving serving
    · have idle : ((p.loops.set k (conn, some first)).set k (conn, none))[k]? = some (conn, none) := by
        simp [below]
      exact .of_step (answer_step serving) (answerable_of_queued rfl idle later)

/-- While a connection loop runs, no request is stuck: every request buffered in the pool's
channel or being served is answered by some run, the loops receiving the buffered requests in
the order they were sent. -/
theorem pending_answerable {p : Pool} (running : p.loops ≠ []) {call : Nat}
    (pending : call ∈ p.queue ∨ call ∈ serving p.loops) :
    ∃ labels p', p.run labels = some p' ∧ ∃ conn result, (call, conn, result) ∈ p'.answers := by
  show Answerable p call
  rcases pending with queued | served
  · obtain ⟨⟨conn, held⟩, others, loops⟩ := List.exists_cons_of_ne_nil running
    cases held with
    | none =>
      have idle : p.loops[0]? = some (conn, none) := by simp [loops]
      exact answerable_of_queued rfl idle queued
    | some first =>
      have found : p.loops[0]? = some (conn, some first) := by simp [loops]
      have idle : (p.loops.set 0 (conn, none))[0]? = some (conn, none) := by simp [loops]
      exact .of_step (answer_step found) (answerable_of_queued rfl idle queued)
  · obtain ⟨⟨conn, held⟩, mem, rfl⟩ := List.mem_filterMap.1 served
    obtain ⟨k, found⟩ := List.mem_iff_getElem?.1 mem
    exact answerable_of_serving found

/-- One connection serving call `0` with call `1` buffered behind it: both are answered. -/
theorem pending_answerable_behind :
    ∃ labels p', (⟨2, [1], [(0, some 0)], false, [0], []⟩ : Pool).run labels = some p' ∧
      ∃ conn result, ((1 : Nat), conn, result) ∈ p'.answers :=
  pending_answerable (p := ⟨2, [1], [(0, some 0)], false, [0], []⟩) (List.cons_ne_nil _ _)
    (.inl (List.mem_singleton_self _))

/-- `DialFixedPool` with `Conns` below one returns a pool and no error, but starts no
connection loop: no run of that pool receives or answers a request, so every caller of
`Request` waits for ever, and at most 64 requests are ever sent, every further caller blocking
on its send. -/
theorem empty_pool_never_answers {conns : Int} (noConns : conns ≤ 0)
    (dialContext : Nat → Except String Unit) :
    DialFixedPool conns dialContext = (.ok (), ⟨[], [], false⟩) ∧
      ∀ labels p, (ofDialled ⟨[], [], false⟩).run labels = some p →
        p.taken = [] ∧ p.answers = [] ∧ p.queue = List.range p.calls ∧ p.calls ≤ 64 := by
  have zero : conns.toNat = 0 := by omega
  have dialled := @DialFixedPool_ok conns dialContext fun i below => absurd below (by omega)
  rw [zero, List.range_zero] at dialled
  refine ⟨dialled, fun labels p ran => ?_⟩
  obtain ⟨-, taken, answers, -⟩ := run_without_loops rfl ran
  obtain ⟨ordered, -, bounded⟩ := accounted_of_reachable (Reachable.init.run ran)
  replace taken : p.taken = [] := taken
  replace answers : p.answers = [] := answers
  rw [taken, List.nil_append] at ordered
  rw [ordered, List.length_range] at bounded
  exact ⟨taken, answers, ordered, bounded⟩

/-- A pool of no connection: `DialFixedPool 0` succeeds and no request is answered. -/
theorem empty_pool_never_answers_zero :
    (0 : Int) ≤ 0 ∧ DialFixedPool 0 (fun _ => .ok ()) = (.ok (), ⟨[], [], false⟩) ∧
      ∀ labels p, (ofDialled ⟨[], [], false⟩).run labels = some p →
        p.taken = [] ∧ p.answers = [] ∧ p.queue = List.range p.calls ∧ p.calls ≤ 64 :=
  ⟨le_refl 0, empty_pool_never_answers (le_refl 0) _⟩

end Pool

end DeveloperGateway.Noise
