/-
# The redis mailbox: insert and retrieve

`MQueue.insert` serializes an element's value with `json.Marshal` and hands it to the
insert script as the element's content. `MQueue.retrieve` decodes each blob the retrieve
script returns into a `redisElement`, takes the window's offset from the first, skips the
slots not set, and decodes each set value as a JSON string. The scripts themselves are
not part of these sources: a run of one is the answer it gives, and the decoding of a blob
into a `redisElement` is a parameter (`decodeElement`).

An element whose value is valid UTF-8 comes back from a window that holds it byte for
byte; a value with a byte that is not UTF-8 comes back with U+FFFD in its place.
-/

import DeveloperGateway.Json.Decode
import DeveloperGateway.Mqueue.Core

namespace DeveloperGateway.Mqueue

open Json

/-- The errors of `MQueue`. -/
inductive MQueueError
  | errRedisExec (cause : String)
  | errOpNotOk
  | errDeserialize
  deriving DecidableEq, Repr

/-- `insertRequest`: the arguments of the insert script. -/
structure InsertRequest where
  key : String
  offset : UInt64
  type : String
  content : List Nat
  deriving DecidableEq, Repr

/-- The insert script's arguments for an element: its value serialized by `json.Marshal`,
which never fails on a string. -/
def insertRequest (key : String) (element : Element) : InsertRequest :=
  ⟨key, element.offset, element.type, marshalString element.value⟩

/-- `MQueue.insert`: the insert script must answer `OK`. -/
def insert (key : String) (element : Element) (exec : InsertRequest → Except String String) :
    Except MQueueError Unit :=
  match exec (insertRequest key element) with
  | .error cause => .error (.errRedisExec cause)
  | .ok answer => if answer = "OK" then .ok () else .error .errOpNotOk

/-- `redisElement`: one slot of a window as the retrieve script returns it. -/
structure RedisElement where
  offset : UInt64
  type : String
  value : List Nat
  set : Bool
  deriving DecidableEq, Repr

/-- The loop of `MQueue.retrieve` over the blobs: a blob or a set value that does not
decode fails the whole call; a slot not set is skipped; a set one is an element with its
value decoded as a JSON string. -/
def retrieveElements (decodeElement : List Nat → Option RedisElement) :
    List (List Nat) → Except MQueueError (List Element)
  | [] => .ok []
  | blob :: blobs =>
    match decodeElement blob with
    | none => .error .errDeserialize
    | some decoded =>
      if !decoded.set then retrieveElements decodeElement blobs
      else
        match unmarshalString decoded.value with
        | none => .error .errDeserialize
        | some value =>
          (retrieveElements decodeElement blobs).map (⟨decoded.offset, decoded.type, value⟩ :: ·)

/-- `MQueue.retrieve` on the answer of the retrieve script: the window's offset is the
offset of its first slot, set or not, and `0` for an empty window. -/
def retrieve (decodeElement : List Nat → Option RedisElement)
    (exec : Except String (List (List Nat))) : Except MQueueError Elements :=
  match exec with
  | .error cause => .error (.errRedisExec cause)
  | .ok blobs =>
    match retrieveElements decodeElement blobs with
    | .error e => .error e
    | .ok elements =>
      .ok ⟨elements, ((blobs.head?.bind decodeElement).map (·.offset)).getD 0⟩

/-- The `for` loop of `MQueue.retrieve` as the code writes it: the first blob, set or not,
sets `offset` and `offsetSet`; a slot not set is skipped; a set one is appended to `res`. -/
def retrieveLoop (decodeElement : List Nat → Option RedisElement) (offsetSet : Bool)
    (offset : UInt64) (res : List Element) : List (List Nat) → Except MQueueError Elements
  | [] => .ok ⟨res, offset⟩
  | blob :: blobs =>
    match decodeElement blob with
    | none => .error .errDeserialize
    | some decoded =>
      let offset := if !offsetSet then decoded.offset else offset
      if !decoded.set then retrieveLoop decodeElement true offset res blobs
      else
        match unmarshalString decoded.value with
        | none => .error .errDeserialize
        | some value =>
          retrieveLoop decodeElement true offset (res ++ [⟨decoded.offset, decoded.type, value⟩])
            blobs

/-- What a successful read of a window starts with: its first blob decodes, the rest of
the window is read, and a set slot puts its element with its decoded value in front. -/
theorem retrieveElements_cons {decodeElement : List Nat → Option RedisElement}
    {blob : List Nat} {blobs : List (List Nat)} {elements : List Element}
    (read : retrieveElements decodeElement (blob :: blobs) = .ok elements) :
    ∃ slot tail, decodeElement blob = some slot ∧
      retrieveElements decodeElement blobs = .ok tail ∧
      (slot.set = false ∧ elements = tail ∨
        slot.set = true ∧ ∃ value, unmarshalString slot.value = some value ∧
          elements = ⟨slot.offset, slot.type, value⟩ :: tail) := by
  cases decoded : decodeElement blob with
  | none => simp [retrieveElements, decoded] at read
  | some slot =>
    cases rest : retrieveElements decodeElement blobs with
    | error e =>
      cases set : slot.set <;> cases value : unmarshalString slot.value <;>
        simp [retrieveElements, decoded, set, value, rest, Except.map] at read
    | ok tail =>
      refine ⟨slot, tail, rfl, rfl, ?_⟩
      cases set : slot.set
      · simp only [retrieveElements, decoded, set, rest, Bool.not_false, if_true,
          Except.ok.injEq] at read
        exact .inl ⟨rfl, read.symm⟩
      · cases decodes : unmarshalString slot.value with
        | none => simp [retrieveElements, decoded, set, decodes] at read
        | some value =>
          simp only [retrieveElements, decoded, set, Bool.not_true, Bool.false_eq_true, if_false,
            decodes, rest, Except.map, Except.ok.injEq] at read
          exact .inr ⟨rfl, value, rfl, read.symm⟩

/-- `MQueue.retrieve` succeeds only when the loop over the window does, with its
elements. -/
theorem retrieveElements_of_retrieve {decodeElement : List Nat → Option RedisElement}
    {blobs : List (List Nat)} {window : Elements}
    (read : retrieve decodeElement (.ok blobs) = .ok window) :
    retrieveElements decodeElement blobs = .ok window.elements := by
  cases elements : retrieveElements decodeElement blobs with
  | error e => simp [retrieve, elements] at read
  | ok found =>
    simp only [retrieve, elements, Except.ok.injEq] at read
    rw [← read]

/-- Once the offset is set, the loop appends to `res` what `retrieveElements` reads from the
blobs left. -/
theorem retrieveLoop_set (decodeElement : List Nat → Option RedisElement) (offset : UInt64) :
    ∀ (res : List Element) (blobs : List (List Nat)),
      retrieveLoop decodeElement true offset res blobs =
        (retrieveElements decodeElement blobs).map (⟨res ++ ·, offset⟩)
  | res, [] => by simp [retrieveLoop, retrieveElements, Except.map]
  | res, blob :: blobs => by
    cases decoded : decodeElement blob with
    | none => simp [retrieveLoop, retrieveElements, decoded, Except.map]
    | some slot =>
      cases set : slot.set
      · simp [retrieveLoop, retrieveElements, decoded, set, retrieveLoop_set decodeElement offset _ blobs]
      · cases value : unmarshalString slot.value with
        | none => simp [retrieveLoop, retrieveElements, decoded, set, value, Except.map]
        | some v =>
          simp only [retrieveLoop, retrieveElements, decoded, set, value, Bool.not_true,
            Bool.false_eq_true, if_false, Bool.not_false, if_true, retrieveLoop_set decodeElement offset _ blobs]
          cases retrieveElements decodeElement blobs <;> simp [Except.map]

/-- `MQueue.retrieve` on the blobs the script returns is its `for` loop, started with no
offset set and no element. -/
theorem retrieve_eq_retrieveLoop (decodeElement : List Nat → Option RedisElement)
    (blobs : List (List Nat)) :
    retrieve decodeElement (.ok blobs) = retrieveLoop decodeElement false 0 [] blobs := by
  cases blobs with
  | nil => rfl
  | cons blob blobs =>
    cases decoded : decodeElement blob with
    | none => simp [retrieve, retrieveLoop, retrieveElements, decoded]
    | some slot =>
      cases set : slot.set
      · cases rest : retrieveElements decodeElement blobs <;>
          simp [retrieve, retrieveLoop, retrieveElements, decoded, set, rest, retrieveLoop_set,
            Except.map]
      · cases value : unmarshalString slot.value <;>
          cases rest : retrieveElements decodeElement blobs <;>
          simp [retrieve, retrieveLoop, retrieveElements, decoded, set, value, rest,
            retrieveLoop_set, Except.map]

/-- The loop fails only with `ErrDeserialize`, and only on a blob, or the value of a set
slot, that does not decode. -/
theorem retrieveElements_error {decodeElement : List Nat → Option RedisElement}
    {blobs : List (List Nat)} {e : MQueueError}
    (read : retrieveElements decodeElement blobs = .error e) :
    e = .errDeserialize ∧ ∃ blob ∈ blobs, decodeElement blob = none ∨
      ∃ slot, decodeElement blob = some slot ∧ slot.set = true ∧
        unmarshalString slot.value = none := by
  induction blobs with
  | nil => cases read
  | cons blob blobs ih =>
    have later : (∃ blob ∈ blobs, decodeElement blob = none ∨
        ∃ slot, decodeElement blob = some slot ∧ slot.set = true ∧
          unmarshalString slot.value = none) → ∃ other ∈ blob :: blobs, _ :=
      fun ⟨other, held, undecoded⟩ => ⟨other, List.mem_cons_of_mem _ held, undecoded⟩
    cases decoded : decodeElement blob with
    | none =>
      simp only [retrieveElements, decoded, Except.error.injEq] at read
      exact ⟨read.symm, blob, List.mem_cons_self _ _, .inl decoded⟩
    | some slot =>
      cases set : slot.set
      · simp only [retrieveElements, decoded, set, Bool.not_false, if_true] at read
        exact (ih read).imp_right later
      · cases value : unmarshalString slot.value with
        | none =>
          simp only [retrieveElements, decoded, set, value, Bool.not_true, Bool.false_eq_true,
            if_false, Except.error.injEq] at read
          exact ⟨read.symm, blob, List.mem_cons_self _ _, .inr ⟨slot, decoded, set, value⟩⟩
        | some v =>
          cases rest : retrieveElements decodeElement blobs with
          | ok tail => simp [retrieveElements, decoded, set, value, rest, Except.map] at read
          | error cause =>
            simp only [retrieveElements, decoded, set, value, rest, Bool.not_true,
              Bool.false_eq_true, if_false, Except.map, Except.error.injEq] at read
            exact (ih (read ▸ rest)).imp_right later

/-- A blob, or the value of a set slot, that does not decode fails the loop. -/
theorem retrieveElements_of_undecodable {decodeElement : List Nat → Option RedisElement}
    {blobs : List (List Nat)} {blob : List Nat} (held : blob ∈ blobs)
    (undecoded : decodeElement blob = none ∨ ∃ slot, decodeElement blob = some slot ∧
      slot.set = true ∧ unmarshalString slot.value = none) :
    ∃ e, retrieveElements decodeElement blobs = .error e := by
  induction blobs with
  | nil => cases held
  | cons first blobs ih =>
    rcases List.mem_cons.1 held with rfl | later
    · rcases undecoded with decoded | ⟨slot, decoded, set, value⟩
      · exact ⟨.errDeserialize, by simp [retrieveElements, decoded]⟩
      · exact ⟨.errDeserialize, by simp [retrieveElements, decoded, set, value]⟩
    · obtain ⟨e, failed⟩ := ih later
      cases decoded : decodeElement first with
      | none => exact ⟨.errDeserialize, by simp [retrieveElements, decoded]⟩
      | some slot =>
        cases set : slot.set
        · exact ⟨e, by simp [retrieveElements, decoded, set, failed]⟩
        · cases value : unmarshalString slot.value
          · exact ⟨.errDeserialize, by simp [retrieveElements, decoded, set, value]⟩
          · exact ⟨e, by simp [retrieveElements, decoded, set, value, failed, Except.map]⟩

/-- A loop that succeeds decodes every blob, and its elements are the set slots in order,
each with its offset, its type and its value decoded. -/
theorem retrieveElements_ok {decodeElement : List Nat → Option RedisElement}
    {blobs : List (List Nat)} {elements : List Element}
    (read : retrieveElements decodeElement blobs = .ok elements) :
    ∃ slots, List.Forall₂ (fun blob slot => decodeElement blob = some slot) blobs slots ∧
      List.Forall₂ (fun (slot : RedisElement) (element : Element) =>
          element.offset = slot.offset ∧ element.type = slot.type ∧
            unmarshalString slot.value = some element.value)
        (slots.filter (·.set)) elements := by
  induction blobs generalizing elements with
  | nil =>
    cases read
    exact ⟨[], .nil, .nil⟩
  | cons blob blobs ih =>
    obtain ⟨slot, tail, decoded, rest, ⟨set, rfl⟩ | ⟨set, value, decodes, rfl⟩⟩ :=
      retrieveElements_cons read
    all_goals obtain ⟨slots, decodesAll, elementsOf⟩ := ih rest
    · refine ⟨slot :: slots, .cons decoded decodesAll, ?_⟩
      rwa [List.filter_cons_of_neg (by simp [set])]
    · refine ⟨slot :: slots, .cons decoded decodesAll, ?_⟩
      rw [List.filter_cons_of_pos set]
      exact .cons ⟨rfl, rfl, decodes⟩ elementsOf

/-- What `MQueue.retrieve` makes of every list of blobs the retrieve script returns: it
fails with `ErrDeserialize`, with no elements, exactly when a blob or the value of a set
slot does not decode; otherwise the window's offset is that of its first blob, set or not
(`0` when there is none), and its elements are the set slots in their order, each with its
own offset, type and decoded value. -/
theorem retrieve_window (decodeElement : List Nat → Option RedisElement)
    (blobs : List (List Nat)) :
    (retrieve decodeElement (.ok blobs) = .error .errDeserialize ↔
      ∃ blob ∈ blobs, decodeElement blob = none ∨
        ∃ slot, decodeElement blob = some slot ∧ slot.set = true ∧
          unmarshalString slot.value = none) ∧
    (retrieve decodeElement (.ok blobs) = .error .errDeserialize ∨
      ∃ slots window, List.Forall₂ (fun blob slot => decodeElement blob = some slot) blobs slots ∧
        retrieve decodeElement (.ok blobs) = .ok window ∧
        window.offset = (slots.head?.map (·.offset)).getD 0 ∧
        List.Forall₂ (fun (slot : RedisElement) (element : Element) =>
            element.offset = slot.offset ∧ element.type = slot.type ∧
              unmarshalString slot.value = some element.value)
          (slots.filter (·.set)) window.elements) := by
  cases read : retrieveElements decodeElement blobs with
  | error e =>
    obtain ⟨rfl, undecodable⟩ := retrieveElements_error read
    have failed : retrieve decodeElement (.ok blobs) = .error .errDeserialize := by
      simp [retrieve, read]
    exact ⟨iff_of_true failed undecodable, .inl failed⟩
  | ok elements =>
    obtain ⟨slots, decodes, elementsOf⟩ := retrieveElements_ok read
    have first : blobs.head?.bind decodeElement = slots.head? := by
      cases decodes with
      | nil => rfl
      | cons decoded _ => exact decoded
    refine ⟨⟨fun failed => by simp [retrieve, read] at failed, fun ⟨_, held, undecoded⟩ => ?_⟩,
      .inr ⟨slots, ⟨elements, (slots.head?.map (·.offset)).getD 0⟩, decodes,
        by simp only [retrieve, read, first], rfl, elementsOf⟩⟩
    obtain ⟨e, failed⟩ := retrieveElements_of_undecodable held undecoded
    rw [read] at failed
    cases failed

/-- A window of placeholders only: no element, and the offset of the first. -/
example : retrieve (fun blob => some ⟨7 + blob.length.toUInt64, "", [], false⟩) (.ok [[], [0]]) =
    .ok ⟨[], 7⟩ := rfl

/-- Every element the loop over a window reads has a value that is valid UTF-8. -/
theorem retrieveElements_validUtf8 {decodeElement : List Nat → Option RedisElement} :
    ∀ {blobs : List (List Nat)} {elements : List Element},
      retrieveElements decodeElement blobs = .ok elements → ∀ element ∈ elements,
        validUtf8 element.value
  | [], _, read => by cases read; simp
  | _ :: _, _, read => by
    obtain ⟨slot, tail, -, rest, ⟨-, rfl⟩ | ⟨-, value, decodes, rfl⟩⟩ := retrieveElements_cons read
    · exact retrieveElements_validUtf8 rest
    · exact List.forall_mem_cons.2 ⟨unmarshalString_validUtf8 decodes, retrieveElements_validUtf8 rest⟩

/-- Whatever the retrieve script answers, every element `MQueue.retrieve` returns has a value
that is valid UTF-8, whatever bytes were inserted and whatever the store holds. -/
theorem retrieve_values_validUtf8 {decodeElement : List Nat → Option RedisElement}
    {blobs : List (List Nat)} {window : Elements}
    (read : retrieve decodeElement (.ok blobs) = .ok window) :
    ∀ element ∈ window.elements, validUtf8 element.value :=
  retrieveElements_validUtf8 (retrieveElements_of_retrieve read)

/-- A slot whose value is the escape of a lone surrogate is read with U+FFFD. -/
theorem retrieve_values_validUtf8_surrogate :
    retrieve (fun _ => some ⟨0, "t", [0x22, 0x5C, 0x75, 0x64, 0x38, 0x30, 0x30, 0x22], true⟩)
        (.ok [[]]) = .ok ⟨[⟨0, "t", [0xEF, 0xBF, 0xBD]⟩], 0⟩ ∧
      ∀ element ∈ [(⟨0, "t", [0xEF, 0xBF, 0xBD]⟩ : Element)], validUtf8 element.value := by
  have read : retrieve (fun _ => some ⟨0, "t", [0x22, 0x5C, 0x75, 0x64, 0x38, 0x30, 0x30, 0x22],
      true⟩) (.ok [[]]) = .ok ⟨[⟨0, "t", [0xEF, 0xBF, 0xBD]⟩], 0⟩ := by
    simp [retrieve, retrieveElements, unmarshalString, isSpace, scanString, escapable, hexValue,
      unquote, ordinaryLength, unquoteLoop, getu4, isSurrogate, decodePair, runeError,
      encodeRune, Except.map]
  exact ⟨read, retrieve_values_validUtf8 read⟩

/-- A window whose blobs are the slots the insert script stored, one per element, is
retrieved as those elements in their order, each value, whatever its bytes, coerced to UTF-8
as `string([]rune(v))`, and with the offset of the first. -/
theorem retrieve_inserted_window (key : String) {decodeElement : List Nat → Option RedisElement}
    {blobs : List (List Nat)} {elements : List Element}
    (stored : List.Forall₂ (fun blob (element : Element) => decodeElement blob =
        some ⟨element.offset, element.type, (insertRequest key element).content, true⟩)
      blobs elements) :
    retrieve decodeElement (.ok blobs) =
      .ok ⟨elements.map fun element => ⟨element.offset, element.type, coerceUtf8 element.value⟩,
        (elements.head?.map (·.offset)).getD 0⟩ := by
  have read : retrieveElements decodeElement blobs =
      .ok (elements.map fun element => ⟨element.offset, element.type, coerceUtf8 element.value⟩) := by
    induction stored with
    | nil => rfl
    | cons decoded _ ih =>
      simp [retrieveElements, decoded, insertRequest, unmarshalString_marshalString_eq, ih,
        Except.map]
  have first : (blobs.head?.bind decodeElement).map (·.offset) = elements.head?.map (·.offset) := by
    cases stored with
    | nil => rfl
    | cons decoded _ => simp [decoded]
  simp only [retrieve, read, first]

/-- A retrieve script that answers with the slots insert stored for `elements`: blob `i`, the
list of length `i`, decodes to the slot of the `i`-th element. -/
def storedSlots (key : String) (elements : List Element) (blob : List Nat) : Option RedisElement :=
  elements[blob.length]?.map fun element =>
    ⟨element.offset, element.type, (insertRequest key element).content, true⟩

/-- Two inserted elements, the first with a byte that is not UTF-8, read from their slots. -/
theorem retrieve_inserted_window_two :
    List.Forall₂ (fun blob (element : Element) =>
        storedSlots "k" [⟨3, "t", [0xFF]⟩, ⟨4, "t", [0x61]⟩] blob =
          some ⟨element.offset, element.type, (insertRequest "k" element).content, true⟩)
        [[], [0]] [⟨3, "t", [0xFF]⟩, ⟨4, "t", [0x61]⟩] ∧
      retrieve (storedSlots "k" [⟨3, "t", [0xFF]⟩, ⟨4, "t", [0x61]⟩]) (.ok [[], [0]]) =
        .ok ⟨[⟨3, "t", coerceUtf8 [0xFF]⟩, ⟨4, "t", coerceUtf8 [0x61]⟩], 3⟩ :=
  have stored : List.Forall₂ (fun blob (element : Element) =>
        storedSlots "k" [⟨3, "t", [0xFF]⟩, ⟨4, "t", [0x61]⟩] blob =
          some ⟨element.offset, element.type, (insertRequest "k" element).content, true⟩)
        [[], [0]] [⟨3, "t", [0xFF]⟩, ⟨4, "t", [0x61]⟩] :=
    .cons rfl (.cons rfl .nil)
  ⟨stored, retrieve_inserted_window "k" stored⟩

end DeveloperGateway.Mqueue
