/-
# The JSON string round trip on every byte string

A Go string is any list of bytes, UTF-8 or not. `encodeState.string` reads it rune by rune:
a byte that starts no UTF-8 sequence is written as the escape `\ufffd`, and every rune that
decodes is written as its token. `unquoteBytes` reads that escape back as U+FFFD, so
`json.Unmarshal` of what `json.Marshal` wrote is `string([]rune(s))` (`coerceUtf8`), the
string read rune by rune and written back: always valid UTF-8, and the string itself exactly
when the string is valid UTF-8. What `json.Marshal` writes is one string literal that the
scanner reads to its closing quote, and valid UTF-8 with no character below U+0020, no `<`,
`>` or `&`, and neither U+2028 nor U+2029: what `escapeHTML` is for. DEL and the C1 controls
U+0080 to U+009F are written as they are.
-/

import DeveloperGateway.Json.String

namespace DeveloperGateway.Json

/-- `string([]rune(s))`: the runes `utf8.DecodeRune` reads one after another, each written
back by `utf8.EncodeRune`; a byte that starts no sequence becomes U+FFFD. -/
def coerceUtf8 : List Nat → List Nat
  | [] => []
  | b :: rest =>
    let decoded := decodeRune (b :: rest)
    encodeRune decoded.1 ++ coerceUtf8 (rest.drop (decoded.2 - 1))
termination_by s => s.length
decreasing_by simp_wf; omega

/-- Bytes that are valid UTF-8: the encodings of scalar values, one after another. -/
def validUtf8 (v : List Nat) : Prop :=
  ∃ rs : List Nat, (∀ r ∈ rs, validRune r) ∧ v = rs.flatMap encodeRune

/-- A rune `json.Marshal` leaves in what it writes: a scalar value, nothing below U+0020,
neither `<`, `>` nor `&`, and neither U+2028 nor U+2029. -/
def htmlSafeRune (r : Nat) : Prop :=
  validRune r ∧ 0x20 ≤ r ∧ r ≠ 0x3C ∧ r ≠ 0x3E ∧ r ≠ 0x26 ∧ r ≠ 0x2028 ∧ r ≠ 0x2029

instance (r : Nat) : Decidable (htmlSafeRune r) := inferInstanceAs (Decidable (_ ∧ _))

/-! ## What `utf8.DecodeRune` reads -/

/-- Every rune `decodeRune` reads from bytes above ASCII is a scalar value, and above ASCII
unless it stands for a byte that is not UTF-8: written back, it gives the bytes it was read
from, and the bytes `EF BF BD` of `RuneError` are read as U+FFFD. -/
theorem decodeRune_high_scalar {c : Nat} (high : runeSelf ≤ c) (rest : List Nat) :
    validRune (decodeRune (c :: rest)).1 ∧
      (decodeRune (c :: rest) ≠ (runeError, 1) → runeSelf ≤ (decodeRune (c :: rest)).1) := by
  by_cases invalid : decodeRune (c :: rest) = (runeError, 1)
  · rw [invalid]
    exact ⟨by decide, fun h => absurd rfl h⟩
  have written := encodeRune_decodeRune high invalid
  obtain ⟨n, size⟩ : ∃ n, (decodeRune (c :: rest)).2 = n + 1 :=
    ⟨_, (Nat.succ_pred_eq_of_pos (one_le_decodeRune_size c rest)).symm⟩
  rw [size, List.take_succ_cons] at written
  rcases decoded : decodeRune (c :: rest) with ⟨r, k⟩
  rw [decoded] at written
  dsimp only at written ⊢
  unfold validRune runeSelf at *
  refine ⟨?_, fun _ => ?_⟩
  · by_contra notScalar
    rw [encodeRune, if_neg (by omega), if_neg (by omega), if_pos (by omega)] at written
    obtain ⟨rfl, spelled⟩ := List.cons.inj written
    rcases rest with _ | ⟨b1, _ | ⟨b2, tail⟩⟩ <;> rcases n with _ | _ | n <;>
      simp only [List.take_succ_cons, List.take_zero, List.take_nil, List.cons.injEq,
        and_true, and_false, reduceCtorEq, false_and] at spelled
    obtain ⟨rfl, rfl, -⟩ := spelled
    rw [@decodeRune_three 0xEF 0xBF 0xBD _ _ (acceptRange_three 0xEF (by decide)) (by decide)
      (by decide) tail] at decoded
    cases decoded
    exact notScalar (by decide)
  · by_contra ascii
    rw [encodeRune, if_pos (by omega)] at written
    injection written with same
    omega

/-- Every rune `decodeRune` reads from a non-empty input is a scalar value. -/
theorem validRune_decodeRune (c : Nat) (rest : List Nat) : validRune (decodeRune (c :: rest)).1 := by
  by_cases ascii : c < runeSelf
  · simp only [decodeRune, ascii, if_true]
    unfold validRune runeSelf at *
    omega
  · exact (decodeRune_high_scalar (by omega) rest).1

/-! ## What `encodeState.string` writes -/

/-- What `encodeState.string` writes for the rune at the head of the bytes: the escape
`\ufffd` for a byte that starts no UTF-8 sequence, the token of the rune read otherwise. -/
def piece (b : Nat) (rest : List Nat) : List Nat :=
  if runeSelf ≤ b ∧ decodeRune (b :: rest) = (runeError, 1) then escapedRuneError
  else token (decodeRune (b :: rest)).1

/-- `encodeState.string` writes the piece of the rune at the head, then goes on after the
bytes the rune was read from. -/
theorem encodeBody_cons (b : Nat) (rest : List Nat) :
    encodeBody (b :: rest) =
      piece b rest ++ encodeBody (rest.drop ((decodeRune (b :: rest)).2 - 1)) := by
  rw [encodeBody, piece]
  by_cases ascii : b < runeSelf
  · have decoded : decodeRune (b :: rest) = (b, 1) := by simp [decodeRune, ascii]
    have notHigh : ¬ (runeSelf ≤ b ∧ (b, 1) = (runeError, 1)) := fun h => absurd h.1 (by omega)
    simp only [if_pos ascii, decoded, notHigh, if_false, token, Nat.sub_self, List.drop_zero]
  have high : runeSelf ≤ b := by omega
  simp only [if_neg ascii]
  by_cases invalid : decodeRune (b :: rest) = (runeError, 1)
  · simp only [invalid, high, and_self, if_true]
    rfl
  have notAscii : ¬ (decodeRune (b :: rest)).1 < runeSelf :=
    Nat.not_lt.2 ((decodeRune_high_scalar high rest).2 invalid)
  have written := encodeRune_decodeRune high invalid
  obtain ⟨n, size⟩ : ∃ n, (decodeRune (b :: rest)).2 = n + 1 :=
    ⟨_, (Nat.succ_pred_eq_of_pos (one_le_decodeRune_size b rest)).symm⟩
  rw [size, List.take_succ_cons] at written
  simp only [invalid, and_false, if_false, token, notAscii, size, Nat.add_sub_cancel, written]
  split_ifs <;> rfl

/-- The escape `\ufffd` is passed on by the scanner. -/
theorem scanString_escapedRuneError (rest : List Nat) :
    scanString (escapedRuneError ++ rest) =
      (scanString rest).map fun p => (escapedRuneError ++ p.1, p.2) :=
  @scanString_unicode 0x66 0x66 0x66 0x64 rfl rest

/-- The second loop of `unquoteBytes` reads the escape `\ufffd` as U+FFFD. -/
theorem unquoteLoop_escapedRuneError (rest : List Nat) :
    unquoteLoop (escapedRuneError ++ rest) = (unquoteLoop rest).map (encodeRune runeError ++ ·) := by
  rw [escapedRuneError, List.cons_append, unquoteLoop.eq_def]
  simp [getu4, hexValue, isSurrogate, runeError]

/-- The scanner passes every piece on to the literal. -/
theorem scanString_piece (b : Nat) (rest s : List Nat) :
    scanString (piece b rest ++ s) = (scanString s).map fun p => (piece b rest ++ p.1, p.2) := by
  unfold piece
  split
  · exact scanString_escapedRuneError s
  · exact scanString_token (validRune_decodeRune b rest) s

/-- The second loop of `unquoteBytes` reads every piece back as the UTF-8 bytes of the rune
read. -/
theorem unquoteLoop_piece (b : Nat) (rest s : List Nat) :
    unquoteLoop (piece b rest ++ s) =
      (unquoteLoop s).map (encodeRune (decodeRune (b :: rest)).1 ++ ·) := by
  unfold piece
  split
  · next invalid =>
    rw [invalid.2]
    exact unquoteLoop_escapedRuneError s
  · exact unquoteLoop_token (validRune_decodeRune b rest) s

/-- The scanner passes all that `encodeState.string` writes on to the literal. -/
theorem scanString_encodeBody (v rest : List Nat) :
    scanString (encodeBody v ++ rest) =
      (scanString rest).map fun p => (encodeBody v ++ p.1, p.2) := by
  induction v using coerceUtf8.induct with
  | case1 => simp [encodeBody]
  | case2 b tail decoded ih =>
    simp only [decoded] at ih
    rw [encodeBody_cons, List.append_assoc, scanString_piece, ih, Option.map_map]
    simp [Function.comp_def]

/-- The second loop of `unquoteBytes` reads all that `encodeState.string` writes back as the
string coerced to UTF-8. -/
theorem unquoteLoop_encodeBody (v : List Nat) : unquoteLoop (encodeBody v) = some (coerceUtf8 v) := by
  induction v using coerceUtf8.induct with
  | case1 => simp [encodeBody, unquoteLoop, coerceUtf8]
  | case2 b tail decoded ih =>
    simp only [decoded] at ih
    rw [encodeBody_cons, unquoteLoop_piece, ih, coerceUtf8]
    rfl

/-- `json.Unmarshal` into a string reads what `json.Marshal` wrote of any string back as the
string coerced to UTF-8. -/
theorem unmarshalString_marshalString_eq (v : List Nat) :
    unmarshalString (marshalString v) = some (coerceUtf8 v) := by
  have closing : scanString [0x22] = some ([], []) := rfl
  have scanned := scanString_encodeBody v [0x22]
  rw [closing, Option.map_some', List.append_nil] at scanned
  rw [marshalString, unmarshalString, List.cons_append, List.dropWhile_cons_of_neg (by decide)]
  simp only [scanned, List.all_nil, if_true, unquote_eq_unquoteLoop, unquoteLoop_encodeBody]

/-! ## `string([]rune(s))` -/

/-- A scalar value's bytes are read back as the scalar value and written as they were. -/
theorem coerceUtf8_encodeRune_append {r : Nat} (valid : validRune r) (rest : List Nat) :
    coerceUtf8 (encodeRune r ++ rest) = encodeRune r ++ coerceUtf8 rest := by
  obtain ⟨b, tail, spelled⟩ : ∃ b tail, encodeRune r = b :: tail := by
    by_cases ascii : r < runeSelf
    · exact ⟨r, [], encodeRune_ascii ascii⟩
    · obtain ⟨b, tail, spelled, -⟩ := encodeRune_high valid (by omega)
      exact ⟨b, tail, spelled⟩
  have decoded := decodeRune_encodeRune valid rest
  rw [spelled, List.cons_append] at decoded ⊢
  rw [coerceUtf8]
  simp only [decoded, spelled, List.length_cons, Nat.add_sub_cancel, List.drop_left]

/-- Valid UTF-8 is left as it is. -/
theorem coerceUtf8_flatMap {rs : List Nat} (valid : ∀ r ∈ rs, validRune r) :
    coerceUtf8 (rs.flatMap encodeRune) = rs.flatMap encodeRune := by
  induction rs with
  | nil => simp [coerceUtf8]
  | cons r rs ih =>
    rw [List.flatMap_cons, coerceUtf8_encodeRune_append (valid r (List.mem_cons_self _ _)),
      ih fun x mem => valid x (List.mem_cons_of_mem _ mem)]

/-- What coercion writes is valid UTF-8: the scalar values `utf8.DecodeRune` reads. -/
theorem validUtf8_coerceUtf8 (v : List Nat) : validUtf8 (coerceUtf8 v) := by
  induction v using coerceUtf8.induct with
  | case1 => exact ⟨[], by simp, by simp [coerceUtf8]⟩
  | case2 b tail decoded ih =>
    obtain ⟨rs, valid, spelled⟩ := ih
    refine ⟨(decodeRune (b :: tail)).1 :: rs, ?_, ?_⟩
    · exact List.forall_mem_cons.2 ⟨validRune_decodeRune b tail, valid⟩
    · rw [coerceUtf8, List.flatMap_cons, ← spelled]

/-! ## What `json.Marshal` writes -/

/-- ASCII bytes are their own runes. -/
theorem flatMap_encodeRune_ascii {bs : List Nat} (ascii : ∀ b ∈ bs, b < runeSelf) :
    bs.flatMap encodeRune = bs := by
  induction bs with
  | nil => rfl
  | cons b bs ih =>
    rw [List.flatMap_cons, encodeRune_ascii (ascii b (List.mem_cons_self _ _)),
      ih fun x mem => ascii x (List.mem_cons_of_mem _ mem)]
    rfl

/-- The digits of an escape are HTML-safe ASCII. -/
theorem hexDigit_htmlSafe {n : Nat} (digit : n < 16) :
    hexDigit n < runeSelf ∧ htmlSafeRune (hexDigit n) := by
  unfold hexDigit htmlSafeRune validRune runeSelf
  split <;> omega

/-- HTML-safe ASCII bytes are the UTF-8 of HTML-safe runes, themselves. -/
theorem htmlSafe_of_ascii {bs : List Nat} (safe : ∀ b ∈ bs, b < runeSelf ∧ htmlSafeRune b) :
    ∃ rs : List Nat, bs = rs.flatMap encodeRune ∧ ∀ r ∈ rs, htmlSafeRune r :=
  ⟨bs, (flatMap_encodeRune_ascii fun b mem => (safe b mem).1).symm, fun b mem => (safe b mem).2⟩

/-- The token `encodeState.string` writes for a scalar value is HTML-safe UTF-8. -/
theorem token_htmlSafe {r : Nat} (valid : validRune r) :
    ∃ rs : List Nat, token r = rs.flatMap encodeRune ∧ ∀ x ∈ rs, htmlSafeRune x := by
  unfold token
  by_cases ascii : r < runeSelf
  · rw [if_pos ascii]
    refine htmlSafe_of_ascii ?_
    split_ifs with safe
    · simp only [htmlSafe, decide_eq_true_eq] at safe
      simp only [List.forall_mem_cons, List.not_mem_nil, false_implies, implies_true, and_true, htmlSafeRune, validRune]
      unfold runeSelf at ascii ⊢
      omega
    have high := hexDigit_htmlSafe (show r / 16 < 16 by unfold runeSelf at ascii; omega)
    have low := hexDigit_htmlSafe (show r % 16 < 16 by omega)
    unfold escapeByte
    split_ifs with copied <;> simp only [List.forall_mem_cons, List.not_mem_nil, false_implies, implies_true, and_true]
    · rcases copied with rfl | rfl <;> decide
    all_goals first | decide | exact ⟨by decide, by decide, by decide, by decide, high, low⟩
  rw [if_neg ascii]
  split_ifs with separator
  · exact htmlSafe_of_ascii (List.forall_mem_cons.2 ⟨by decide, List.forall_mem_cons.2
      ⟨by decide, List.forall_mem_cons.2 ⟨by decide, List.forall_mem_cons.2 ⟨by decide,
        List.forall_mem_cons.2 ⟨by decide, List.forall_mem_singleton.2
          (hexDigit_htmlSafe (Nat.mod_lt _ (by decide)))⟩⟩⟩⟩⟩)
  · refine ⟨[r], by simp, List.forall_mem_singleton.2 ⟨valid, ?_⟩⟩
    unfold runeSelf at ascii
    omega

/-- Every piece `encodeState.string` writes is HTML-safe UTF-8. -/
theorem piece_htmlSafe (b : Nat) (rest : List Nat) :
    ∃ rs : List Nat, piece b rest = rs.flatMap encodeRune ∧ ∀ x ∈ rs, htmlSafeRune x := by
  unfold piece
  split
  · exact htmlSafe_of_ascii (by decide)
  · exact token_htmlSafe (validRune_decodeRune b rest)

/-- All that `encodeState.string` writes is HTML-safe UTF-8. -/
theorem encodeBody_htmlSafe (v : List Nat) :
    ∃ rs : List Nat, encodeBody v = rs.flatMap encodeRune ∧ ∀ x ∈ rs, htmlSafeRune x := by
  induction v using coerceUtf8.induct with
  | case1 => exact ⟨[], by simp [encodeBody], by simp⟩
  | case2 b tail decoded ih =>
    simp only [decoded] at ih
    obtain ⟨rs, spelled, safe⟩ := ih
    obtain ⟨ps, written, pieceSafe⟩ := piece_htmlSafe b tail
    refine ⟨ps ++ rs, ?_, fun x mem => (List.mem_append.1 mem).elim (pieceSafe x) (safe x)⟩
    rw [encodeBody_cons, written, spelled, List.flatMap_append]

/-! ## The round trip -/

/-- `json.Unmarshal` into a string reads back what `json.Marshal` wrote of every string,
UTF-8 or not, as `string([]rune(s))`: each rune `utf8.DecodeRune` reads comes back as its
UTF-8 bytes, and each byte that starts no sequence as U+FFFD. What comes back is valid
UTF-8, and a second round trip gives it back unchanged. -/
theorem unmarshalString_marshalString_coerceUtf8 (v : List Nat) :
    unmarshalString (marshalString v) = some (coerceUtf8 v) ∧ validUtf8 (coerceUtf8 v) ∧
      unmarshalString (marshalString (coerceUtf8 v)) = some (coerceUtf8 v) := by
  obtain ⟨rs, valid, spelled⟩ := validUtf8_coerceUtf8 v
  refine ⟨unmarshalString_marshalString_eq v, ⟨rs, valid, spelled⟩, ?_⟩
  rw [unmarshalString_marshalString_eq, spelled, coerceUtf8_flatMap valid]

/-- The round trip through `json.Marshal` and `json.Unmarshal` loses nothing exactly on the
strings that are valid UTF-8. -/
theorem marshalString_lossless_iff (v : List Nat) :
    unmarshalString (marshalString v) = some v ↔ validUtf8 v := by
  rw [unmarshalString_marshalString_eq, Option.some.injEq]
  constructor
  · intro same
    rw [← same]
    exact validUtf8_coerceUtf8 v
  · rintro ⟨rs, valid, rfl⟩
    exact coerceUtf8_flatMap valid

/-- What `json.Marshal` writes of every string is one string literal: the scanner reads it
to its own closing quote, whatever follows. And it is valid UTF-8 with no character below
U+0020, no `<`, `>` or `&`, and neither U+2028 nor U+2029, so that it can stand inside HTML
and JavaScript; DEL and the C1 controls are written as they are. -/
theorem marshalString_htmlSafe (v after : List Nat) :
    scanString ((marshalString v).tail ++ after) = some (encodeBody v, after) ∧
      ∃ rs : List Nat, marshalString v = rs.flatMap encodeRune ∧ ∀ r ∈ rs, htmlSafeRune r := by
  have closing : scanString (0x22 :: after) = some ([], after) := by
    rw [scanString.eq_def]
    rfl
  obtain ⟨rs, spelled, safe⟩ := encodeBody_htmlSafe v
  have quote : htmlSafeRune 0x22 := by decide
  refine ⟨?_, 0x22 :: rs ++ [0x22], ?_, ?_⟩
  · rw [marshalString, List.cons_append, List.tail_cons, List.append_assoc,
      List.singleton_append, scanString_encodeBody, closing]
    simp
  · simp [marshalString, spelled, encodeRune, List.flatMap_append]
  · simp only [List.mem_append, List.mem_cons, List.mem_singleton, List.not_mem_nil, or_false]
    rintro r ((rfl | mem) | rfl)
    exacts [quote, safe r mem, quote]

end DeveloperGateway.Json
