/-
# `json.Unmarshal` of a string, on any input

`json.Unmarshal` into a string makes two passes over its input: the scanner of
`checkValid` decides whether the input is a JSON value, and `unquoteBytes` then decodes the
string literal. The second pass reads the literal rune by rune and coerces what it reads to
UTF-8, so whatever the input, what `json.Unmarshal` yields is valid UTF-8. And the passes
agree: every literal the scanner accepts is decoded, so `json.Unmarshal` fails on a string
literal only where the scanner does.
-/

import DeveloperGateway.Json.RoundTrip

namespace DeveloperGateway.Json

/-! ## What the decoder writes -/

/-- A digit `hexValue` reads is below 16. -/
theorem hexValue_lt {c d : Nat} (h : hexValue c = some d) : d < 16 := by
  unfold hexValue at h
  split_ifs at h <;> cases h <;> omega

/-- The rune of an escape `\uXXXX` is below U+10000. -/
theorem getu4_lt {s : List Nat} {r : Nat} (h : getu4 s = some r) : r < 0x10000 := by
  unfold getu4 at h
  split at h
  · simp only [Option.bind_eq_bind, Option.bind_eq_some, Option.pure_def, Option.some.injEq] at h
    obtain ⟨d1, e1, d2, e2, d3, e3, d4, e4, rfl⟩ := h
    have := hexValue_lt e1
    have := hexValue_lt e2
    have := hexValue_lt e3
    have := hexValue_lt e4
    omega
  · cases h

/-- `utf16.DecodeRune` gives a scalar value: the rune of a surrogate pair, or `RuneError`. -/
theorem validRune_decodePair (r1 : Nat) (r2 : Option Nat) : validRune (decodePair r1 r2) := by
  unfold decodePair validRune runeError
  split
  · split <;> omega
  · omega

/-- A round of the second loop of `unquoteBytes` that reads the scalar value `r` from the
first `k` bytes. -/
theorem unquoteLoop_round_of_map {s t v : List Nat} {r k : Nat} (valid : validRune r)
    (pos : 0 < k) (dropped : s.drop k = t) (h : (unquoteLoop t).map (encodeRune r ++ ·) = some v) :
    ∃ r k tail, validRune r ∧ 0 < k ∧ unquoteLoop (s.drop k) = some tail ∧
      v = encodeRune r ++ tail := by
  obtain ⟨tail, read, rfl⟩ := Option.map_eq_some'.1 h
  exact ⟨r, k, tail, valid, pos, dropped ▸ read, rfl⟩

/-- A round that reads an ASCII byte, written as itself. -/
theorem unquoteLoop_round_of_ascii {s t v : List Nat} {c k : Nat} (ascii : c < runeSelf)
    (pos : 0 < k) (dropped : s.drop k = t) (h : (unquoteLoop t).map (c :: ·) = some v) :
    ∃ r k tail, validRune r ∧ 0 < k ∧ unquoteLoop (s.drop k) = some tail ∧
      v = encodeRune r ++ tail := by
  refine unquoteLoop_round_of_map (r := c) (by unfold validRune runeSelf at *; omega) pos dropped ?_
  rw [encodeRune_ascii ascii]
  exact h

/-- Each round of the second loop of `unquoteBytes` that does not fail reads a scalar value
from one or more bytes at the head and writes its UTF-8: an escape of one character, an
escape `\uXXXX` (with its pair, or alone as `RuneError`), an ASCII byte, or a rune
`utf8.DecodeRune` reads. -/
theorem unquoteLoop_round {c : Nat} {rest v : List Nat} (h : unquoteLoop (c :: rest) = some v) :
    ∃ r k tail, validRune r ∧ 0 < k ∧ unquoteLoop ((c :: rest).drop k) = some tail ∧
      v = encodeRune r ++ tail := by
  rw [unquoteLoop.eq_def] at h
  dsimp only at h
  by_cases backslash : c = 0x5C
  · rw [if_pos backslash] at h
    subst backslash
    rcases rest with _ | ⟨e, rest⟩
    · cases h
    dsimp only at h
    by_cases copied : e = 0x22 ∨ e = 0x5C ∨ e = 0x2F ∨ e = 0x27
    · rw [if_pos copied] at h
      exact unquoteLoop_round_of_ascii (by unfold runeSelf; omega) (k := 2) (by omega) rfl h
    rw [if_neg copied] at h
    by_cases b : e = 0x62
    · rw [if_pos b] at h
      exact unquoteLoop_round_of_ascii (by unfold runeSelf; omega) (k := 2) (by omega) rfl h
    rw [if_neg b] at h
    by_cases f : e = 0x66
    · rw [if_pos f] at h
      exact unquoteLoop_round_of_ascii (by unfold runeSelf; omega) (k := 2) (by omega) rfl h
    rw [if_neg f] at h
    by_cases n : e = 0x6E
    · rw [if_pos n] at h
      exact unquoteLoop_round_of_ascii (by unfold runeSelf; omega) (k := 2) (by omega) rfl h
    rw [if_neg n] at h
    by_cases r : e = 0x72
    · rw [if_pos r] at h
      exact unquoteLoop_round_of_ascii (by unfold runeSelf; omega) (k := 2) (by omega) rfl h
    rw [if_neg r] at h
    by_cases t : e = 0x74
    · rw [if_pos t] at h
      exact unquoteLoop_round_of_ascii (by unfold runeSelf; omega) (k := 2) (by omega) rfl h
    rw [if_neg t] at h
    by_cases u : e = 0x75
    · rw [if_pos u] at h
      subst u
      cases found : getu4 (0x5C :: 0x75 :: rest) with
      | none => rw [found] at h; cases h
      | some rr =>
        rw [found] at h
        dsimp only at h
        by_cases surrogate : isSurrogate rr = true
        · rw [if_pos surrogate] at h
          by_cases paired : decodePair rr (getu4 (rest.drop 4)) ≠ runeError
          · rw [if_pos paired] at h
            exact unquoteLoop_round_of_map (validRune_decodePair _ _) (k := 12) (by omega) rfl h
          · rw [if_neg paired] at h
            exact unquoteLoop_round_of_map (r := runeError) (by decide) (k := 6) (by omega) rfl h
        · rw [if_neg surrogate] at h
          have := getu4_lt found
          exact unquoteLoop_round_of_map (by simp [isSurrogate] at surrogate; unfold validRune; omega)
            (k := 6) (by omega) rfl h
    · rw [if_neg u] at h
      cases h
  rw [if_neg backslash] at h
  by_cases quote : c = 0x22 ∨ c < 0x20
  · rw [if_pos quote] at h
    cases h
  rw [if_neg quote] at h
  by_cases ascii : c < runeSelf
  · rw [if_pos ascii] at h
    exact unquoteLoop_round_of_ascii ascii (k := 1) (by omega) rfl h
  rw [if_neg ascii] at h
  obtain ⟨n, size⟩ : ∃ n, (decodeRune (c :: rest)).2 = n + 1 :=
    ⟨_, (Nat.succ_pred_eq_of_pos (one_le_decodeRune_size c rest)).symm⟩
  rw [size, Nat.add_sub_cancel] at h
  exact unquoteLoop_round_of_map (validRune_decodeRune c rest) (k := n + 1) (by omega) rfl h

/-- The second loop of `unquoteBytes` writes valid UTF-8, whatever it reads. -/
theorem validUtf8_unquoteLoop : ∀ (s : List Nat) {v : List Nat}, unquoteLoop s = some v → validUtf8 v
  | [], v, h => by
    rw [unquoteLoop.eq_def] at h
    cases h
    exact ⟨[], by simp, rfl⟩
  | c :: rest, v, h => by
    obtain ⟨r, k, tail, valid, pos, read, rfl⟩ := unquoteLoop_round h
    obtain ⟨rs, validRs, rfl⟩ := validUtf8_unquoteLoop ((c :: rest).drop k) read
    exact ⟨r :: rs, List.forall_mem_cons.2 ⟨valid, validRs⟩, by rw [List.flatMap_cons]⟩
termination_by s => s.length
decreasing_by simp_wf; omega

/-- What `json.Unmarshal` into a string returns: the unquoted body of a string literal the
scanner reads to its closing quote, with only whitespace around it, or the empty string for
`null`. -/
theorem unmarshalString_eq_some {data v : List Nat} (h : unmarshalString data = some v) :
    (∃ rest body after, data.dropWhile isSpace = 0x22 :: rest ∧
        scanString rest = some (body, after) ∧ after.all isSpace = true ∧ unquote body = some v) ∨
      ∃ after, data.dropWhile isSpace = 0x6E :: 0x75 :: 0x6C :: 0x6C :: after ∧
        after.all isSpace = true ∧ v = [] := by
  unfold unmarshalString at h
  split at h
  · next rest trimmed =>
    split at h
    · next body after scanned =>
      split at h
      · exact .inl ⟨rest, body, after, trimmed, scanned, ‹_›, h⟩
      · cases h
    · cases h
  · next after trimmed =>
    split at h
    · exact .inr ⟨after, trimmed, ‹_›, (Option.some.inj h).symm⟩
    · cases h
  · cases h

/-- `json.Unmarshal` into a string never yields invalid UTF-8, whatever it reads: a byte that
is not UTF-8, and an escaped surrogate without its pair, both come out as U+FFFD. -/
theorem unmarshalString_validUtf8 {data v : List Nat} (h : unmarshalString data = some v) :
    validUtf8 v := by
  rcases unmarshalString_eq_some h with ⟨-, body, -, -, -, -, read⟩ | ⟨-, -, -, rfl⟩
  · rw [unquote_eq_unquoteLoop] at read
    exact validUtf8_unquoteLoop _ read
  · exact ⟨[], by simp, rfl⟩

/-! ## The two passes agree -/

/-- The bytes between the quotes of a string literal the scanner accepts: plain bytes,
escapes of one character the scanner knows, and escapes `\uXXXX`. -/
inductive Escaped : List Nat → Prop
  | nil : Escaped []
  | byte {b : Nat} {rest : List Nat} : plain b → Escaped rest → Escaped (b :: rest)
  | escape {e : Nat} {rest : List Nat} : escapable e = true → Escaped rest →
      Escaped (0x5C :: e :: rest)
  | unicode {h1 h2 h3 h4 : Nat} {rest : List Nat} :
      [h1, h2, h3, h4].all (fun h => (hexValue h).isSome) = true → Escaped rest →
      Escaped (0x5C :: 0x75 :: h1 :: h2 :: h3 :: h4 :: rest)

/-- The scanner accepts only such bytes between the quotes. -/
theorem escaped_of_scanString : ∀ {s body after : List Nat},
    scanString s = some (body, after) → Escaped body
  | [], _, _, h => by simp [scanString] at h
  | c :: rest, body, after, h => by
    rw [scanString.eq_def] at h
    dsimp only at h
    by_cases quote : c = 0x22
    · rw [if_pos quote] at h
      cases h
      exact .nil
    rw [if_neg quote] at h
    by_cases backslash : c = 0x5C
    · rw [if_pos backslash] at h
      subst backslash
      rcases rest with _ | ⟨e, rest⟩
      · cases h
      dsimp only at h
      by_cases known : escapable e = true
      · rw [if_pos known] at h
        obtain ⟨⟨body', after'⟩, scanned, same⟩ := Option.map_eq_some'.1 h
        cases same
        exact .escape known (escaped_of_scanString scanned)
      rw [if_neg known] at h
      by_cases u : e = 0x75
      · rw [if_pos u] at h
        subst u
        rcases rest with _ | ⟨h1, _ | ⟨h2, _ | ⟨h3, _ | ⟨h4, rest⟩⟩⟩⟩
        any_goals cases h
        dsimp only at h
        by_cases digits : [h1, h2, h3, h4].all (fun h => (hexValue h).isSome) = true
        · rw [if_pos digits] at h
          obtain ⟨⟨body', after'⟩, scanned, same⟩ := Option.map_eq_some'.1 h
          cases same
          exact .unicode digits (escaped_of_scanString scanned)
        · rw [if_neg digits] at h
          cases h
      · rw [if_neg u] at h
        cases h
    rw [if_neg backslash] at h
    by_cases control : c < 0x20
    · rw [if_pos control] at h
      cases h
    rw [if_neg control] at h
    obtain ⟨⟨body', after'⟩, scanned, same⟩ := Option.map_eq_some'.1 h
    cases same
    exact .byte ⟨by omega, quote, backslash⟩ (escaped_of_scanString scanned)

/-- After a byte that is no backslash, the rest of a literal's bytes are a literal's bytes. -/
theorem Escaped.tail {x : Nat} {rest : List Nat} (h : Escaped (x :: rest)) (other : x ≠ 0x5C) :
    Escaped rest := by
  cases h with
  | byte _ tail => exact tail
  | escape => exact absurd rfl other
  | unicode => exact absurd rfl other

/-- Dropping bytes none of which is a backslash leaves a literal's bytes. -/
theorem Escaped.drop : ∀ (k : Nat) {l : List Nat}, Escaped l → (∀ x ∈ l.take k, x ≠ 0x5C) →
    Escaped (l.drop k)
  | 0, _, h, _ => h
  | _ + 1, [], h, _ => h
  | k + 1, x :: _, h, other =>
    Escaped.drop k (h.tail (other x (List.mem_cons_self _ _)))
      fun y mem => other y (List.mem_cons_of_mem _ mem)

/-- After an escape `\uXXXX`, the rest of a literal's bytes are a literal's bytes. -/
theorem Escaped.of_unicode {g1 g2 g3 g4 : Nat} {rest : List Nat}
    (h : Escaped (0x5C :: 0x75 :: g1 :: g2 :: g3 :: g4 :: rest)) : Escaped rest := by
  cases h with
  | byte plainByte _ => exact absurd rfl plainByte.2.2
  | escape known _ => simp [escapable] at known
  | unicode _ tail => exact tail

/-- The second byte of a sequence `acceptRange` accepts is above ASCII. -/
theorem runeSelf_le_lo {p0 size lo hi : Nat} (h : acceptRange p0 = some (size, lo, hi)) :
    runeSelf ≤ lo := by
  unfold runeSelf
  rcases acceptRange_eq_some h with ⟨-, -, -, rfl, -⟩ | ⟨-, -, -, rfl, -⟩ | ⟨-, -, -, rfl, -⟩
  · decide
  all_goals split <;> decide

/-- The bytes `utf8.DecodeRune` reads after a byte above ASCII are above ASCII, so none of
them is a backslash. -/
theorem decodeRune_tail_high {c : Nat} (high : runeSelf ≤ c) (rest : List Nat) :
    ∀ x ∈ rest.take ((decodeRune (c :: rest)).2 - 1), runeSelf ≤ x := by
  rcases decodeRune_high high rest with invalid |
    ⟨lo, hi, b1, tail, accepted, rfl, low, -, decoded⟩ |
    ⟨lo, hi, b1, b2, tail, accepted, rfl, low, -, third, decoded⟩ |
    ⟨lo, hi, b1, b2, b3, tail, accepted, rfl, low, -, third, fourth, decoded⟩
  · simp [invalid]
  all_goals
    have := runeSelf_le_lo accepted
    simp only [decoded, continuation_iff] at *
    simp only [runeSelf] at *
    simp only [Nat.add_sub_cancel, List.take_succ_cons, List.take_zero, List.mem_cons,
      List.not_mem_nil, or_false]
    omega

/-- The second loop of `unquoteBytes` knows every escape of one character the scanner knows. -/
theorem unquoteLoop_escape_isSome {e : Nat} (known : escapable e = true) (rest : List Nat) :
    (unquoteLoop (0x5C :: e :: rest)).isSome = (unquoteLoop rest).isSome := by
  simp only [escapable, decide_eq_true_eq] at known
  rw [unquoteLoop.eq_def]
  rcases known with rfl | rfl | rfl | rfl | rfl | rfl | rfl | rfl <;> simp

/-- An escape `\uXXXX` the scanner accepts has a rune. -/
theorem getu4_of_digits {h1 h2 h3 h4 : Nat}
    (digits : [h1, h2, h3, h4].all (fun h => (hexValue h).isSome) = true) (rest : List Nat) :
    ∃ rr, getu4 (0x5C :: 0x75 :: h1 :: h2 :: h3 :: h4 :: rest) = some rr := by
  simp only [List.all_cons, List.all_nil, Bool.and_true, Bool.and_eq_true,
    Option.isSome_iff_exists] at digits
  obtain ⟨⟨d1, e1⟩, ⟨d2, e2⟩, ⟨d3, e3⟩, ⟨d4, e4⟩⟩ := digits
  exact ⟨((d1 * 16 + d2) * 16 + d3) * 16 + d4, by simp [getu4, e1, e2, e3, e4]⟩

/-- `getu4` reads only an escape `\uXXXX`. -/
theorem getu4_shape {s : List Nat} {r : Nat} (h : getu4 s = some r) :
    ∃ g1 g2 g3 g4 rest, s = 0x5C :: 0x75 :: g1 :: g2 :: g3 :: g4 :: rest := by
  unfold getu4 at h
  split at h
  · exact ⟨_, _, _, _, _, rfl⟩
  · cases h

/-- The second loop of `unquoteBytes` decodes every literal the scanner accepts: no round of
it fails on such bytes. -/
theorem unquoteLoop_isSome : ∀ {s : List Nat}, Escaped s → (unquoteLoop s).isSome
  | [], _ => by rw [unquoteLoop.eq_def]; rfl
  | c :: rest, h => by
    cases h with
    | byte plainByte tail =>
      obtain ⟨printable, notQuote, notBackslash⟩ := plainByte
      rw [unquoteLoop.eq_def]
      dsimp only
      rw [if_neg notBackslash, if_neg (by omega)]
      by_cases ascii : c < runeSelf
      · rw [if_pos ascii, Option.isSome_map']
        exact unquoteLoop_isSome tail
      · rw [if_neg ascii, Option.isSome_map']
        refine unquoteLoop_isSome (tail.drop _ fun x mem => ?_)
        have := decodeRune_tail_high (Nat.le_of_not_lt ascii) rest x mem
        unfold runeSelf at this
        omega
    | escape known tail =>
      rw [unquoteLoop_escape_isSome known]
      exact unquoteLoop_isSome tail
    | @unicode h1 h2 h3 h4 rest digits tail =>
      obtain ⟨rr, found⟩ := getu4_of_digits digits rest
      rw [unquoteLoop.eq_def]
      dsimp only
      rw [if_pos rfl, if_neg (by decide), if_neg (by decide), if_neg (by decide),
        if_neg (by decide), if_neg (by decide), if_neg (by decide), if_pos rfl, found]
      dsimp only
      split_ifs with surrogate paired
      · rw [Option.isSome_map']
        cases second : getu4 rest with
        | none => simp [second, decodePair] at paired
        | some r2 =>
          obtain ⟨g1, g2, g3, g4, rest', rfl⟩ := getu4_shape second
          exact unquoteLoop_isSome tail.of_unicode
      · rw [Option.isSome_map']
        exact unquoteLoop_isSome tail
      · rw [Option.isSome_map']
        exact unquoteLoop_isSome tail
termination_by s => s.length

/-- `json.Unmarshal` into a string succeeds exactly on a string literal the scanner accepts,
or `null`, with whitespace around them: the scanner and `unquoteBytes` agree, so a literal
that passed the first pass never fails the second. -/
theorem unmarshalString_isSome_iff (data : List Nat) :
    (unmarshalString data).isSome ↔
      (∃ rest body after, data.dropWhile isSpace = 0x22 :: rest ∧
        scanString rest = some (body, after) ∧ after.all isSpace = true) ∨
      ∃ after, data.dropWhile isSpace = 0x6E :: 0x75 :: 0x6C :: 0x6C :: after ∧
        after.all isSpace = true := by
  constructor
  · intro h
    obtain ⟨v, read⟩ := Option.isSome_iff_exists.1 h
    rcases unmarshalString_eq_some read with ⟨rest, body, after, trimmed, scanned, trailing, -⟩ |
      ⟨after, trimmed, trailing, -⟩
    exacts [.inl ⟨rest, body, after, trimmed, scanned, trailing⟩, .inr ⟨after, trimmed, trailing⟩]
  · rintro (⟨rest, body, after, trimmed, scanned, trailing⟩ | ⟨after, trimmed, trailing⟩)
    · rw [unmarshalString, trimmed]
      simp only [scanned, trailing, if_true, unquote_eq_unquoteLoop]
      exact unquoteLoop_isSome (escaped_of_scanString scanned)
    · rw [unmarshalString, trimmed]
      simp [trailing]

end DeveloperGateway.Json
