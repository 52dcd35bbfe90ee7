/-
# What a string literal means

The escapes of a JSON string and what each one stands for, written down as a grammar that
relates the bytes between the quotes to the characters they denote, apart from the code: a
character other than a control character, the quote and the backslash stands for itself,
in UTF-8; `\"`, `\\`, `\/`, `\b`, `\f`, `\n`, `\r` and `\t` stand for the quote, the
backslash, the solidus, backspace, form feed, line feed, carriage return and tab; `\uXXXX`
for the character with those four hexadecimal digits; and two of them, a high surrogate
then a low one, for the character beyond U+FFFF they encode together. Where JSON leaves the
meaning open, `json.Unmarshal` does not fail: an escaped surrogate that is not the first
half of such a pair, and a byte that starts no UTF-8 sequence, both stand for U+FFFD.

`json.Unmarshal` into a string returns exactly the UTF-8 of what the literal denotes: its
second pass, `unquoteBytes`, is sound against the grammar escape by escape, and every
literal its first pass accepts has a meaning under it.
-/

import DeveloperGateway.Json.Decode

namespace DeveloperGateway.Json

/-! ## The grammar -/

/-- The escapes of one character after a backslash, and the characters they stand for. -/
def escapeMeaning : Nat → Option Nat
  | 0x22 => some 0x22
  | 0x5C => some 0x5C
  | 0x2F => some 0x2F
  | 0x62 => some 0x08
  | 0x66 => some 0x0C
  | 0x6E => some 0x0A
  | 0x72 => some 0x0D
  | 0x74 => some 0x09
  | _ => none

/-- Four hexadecimal digits of either case and the number they write, the most significant
first. -/
inductive Hex4 : List Nat → Nat → Prop
  | mk {h1 h2 h3 h4 d1 d2 d3 d4 : Nat} : hexValue h1 = some d1 → hexValue h2 = some d2 →
      hexValue h3 = some d3 → hexValue h4 = some d4 →
      Hex4 [h1, h2, h3, h4] (((d1 * 16 + d2) * 16 + d3) * 16 + d4)

/-- The bytes between the quotes of a JSON string, and the characters they denote. -/
inductive Denotes : List Nat → List Nat → Prop
  /-- No byte, no character. -/
  | nil : Denotes [] []
  /-- A character written as itself, in UTF-8: not a control character, the quote or the
  backslash. -/
  | char {r : Nat} {rest rs : List Nat} : validRune r → 0x20 ≤ r → r ≠ 0x22 → r ≠ 0x5C →
      Denotes rest rs → Denotes (encodeRune r ++ rest) (r :: rs)
  /-- An escape of one character. -/
  | escape {e r : Nat} {rest rs : List Nat} : escapeMeaning e = some r → Denotes rest rs →
      Denotes (0x5C :: e :: rest) (r :: rs)
  /-- `\uXXXX` for a character outside the surrogates. -/
  | unicode {ds : List Nat} {r : Nat} {rest rs : List Nat} : Hex4 ds r →
      ¬ (0xD800 ≤ r ∧ r < 0xE000) → Denotes rest rs →
      Denotes (0x5C :: 0x75 :: (ds ++ rest)) (r :: rs)
  /-- A high surrogate and a low one, for the character beyond U+FFFF they encode. -/
  | pair {ds es : List Nat} {hi lo : Nat} {rest rs : List Nat} : Hex4 ds hi → Hex4 es lo →
      0xD800 ≤ hi → hi < 0xDC00 → 0xDC00 ≤ lo → lo < 0xE000 → Denotes rest rs →
      Denotes (0x5C :: 0x75 :: (ds ++ 0x5C :: 0x75 :: (es ++ rest)))
        ((0x10000 + (hi - 0xD800) * 0x400 + (lo - 0xDC00)) :: rs)
  /-- A surrogate that is not the high half of a pair with the escape after it: U+FFFD. -/
  | lone {ds : List Nat} {s : Nat} {rest rs : List Nat} : Hex4 ds s → 0xD800 ≤ s →
      s < 0xE000 →
      (∀ es lo tail, rest = 0x5C :: 0x75 :: (es ++ tail) → Hex4 es lo →
        ¬ (s < 0xDC00 ∧ 0xDC00 ≤ lo ∧ lo < 0xE000)) →
      Denotes rest rs → Denotes (0x5C :: 0x75 :: (ds ++ rest)) (0xFFFD :: rs)
  /-- A byte that starts the UTF-8 of no character: U+FFFD. -/
  | invalid {b : Nat} {rest rs : List Nat} : 0x80 ≤ b →
      (∀ r tail, validRune r → b :: rest ≠ encodeRune r ++ tail) → Denotes rest rs →
      Denotes (b :: rest) (0xFFFD :: rs)

/-! ## The decoder follows the grammar -/

/-- Four digits are read by `getu4` as the number they write. -/
theorem getu4_hex4 {ds : List Nat} {r : Nat} (hex : Hex4 ds r) (rest : List Nat) :
    getu4 (0x5C :: 0x75 :: (ds ++ rest)) = some r := by
  cases hex with
  | mk e1 e2 e3 e4 => simp [getu4, e1, e2, e3, e4]

/-- Four digits are four bytes. -/
theorem Hex4.drop {ds : List Nat} {r : Nat} (hex : Hex4 ds r) (rest : List Nat) :
    (ds ++ rest).drop 4 = rest := by
  cases hex
  rfl

/-- The round of the second loop of `unquoteBytes` at an escape `\u` whose digits it reads. -/
theorem unquoteLoop_u {rest : List Nat} {rr : Nat}
    (found : getu4 (0x5C :: 0x75 :: rest) = some rr) :
    unquoteLoop (0x5C :: 0x75 :: rest) =
      if isSurrogate rr then
        if decodePair rr (getu4 (rest.drop 4)) ≠ runeError then
          (unquoteLoop (rest.drop 10)).map (encodeRune (decodePair rr (getu4 (rest.drop 4))) ++ ·)
        else (unquoteLoop (rest.drop 4)).map (encodeRune runeError ++ ·)
      else (unquoteLoop (rest.drop 4)).map (encodeRune rr ++ ·) := by
  rw [unquoteLoop.eq_def]
  simp only [if_pos, found]
  rfl

/-- A character written as itself is copied. -/
theorem unquoteLoop_char {r : Nat} (valid : validRune r) (printable : 0x20 ≤ r)
    (notQuote : r ≠ 0x22) (notBackslash : r ≠ 0x5C) (rest : List Nat) :
    unquoteLoop (encodeRune r ++ rest) = (unquoteLoop rest).map (encodeRune r ++ ·) := by
  by_cases ascii : r < runeSelf
  · rw [encodeRune_ascii ascii, List.singleton_append, unquoteLoop.eq_def]
    simp only [if_neg notBackslash, if_neg (show ¬ (r = 0x22 ∨ r < 0x20) by omega), if_pos ascii]
    rfl
  · exact unquoteLoop_encodeRune_high valid (by omega) rest

/-- An escape of one character is resolved to it. -/
theorem unquoteLoop_escape {e r : Nat} (meaning : escapeMeaning e = some r) (rest : List Nat) :
    unquoteLoop (0x5C :: e :: rest) = (unquoteLoop rest).map (encodeRune r ++ ·) := by
  unfold escapeMeaning at meaning
  split at meaning <;> cases meaning <;> rw [unquoteLoop.eq_def] <;> rfl

/-- `\uXXXX` outside the surrogates is resolved to its character. -/
theorem unquoteLoop_unicode {ds : List Nat} {r : Nat} (hex : Hex4 ds r)
    (notSurrogate : ¬ (0xD800 ≤ r ∧ r < 0xE000)) (rest : List Nat) :
    unquoteLoop (0x5C :: 0x75 :: (ds ++ rest)) = (unquoteLoop rest).map (encodeRune r ++ ·) := by
  rw [unquoteLoop_u (getu4_hex4 hex rest), if_neg (by simpa [isSurrogate] using notSurrogate),
    hex.drop]

/-- A surrogate pair is resolved to the character it encodes. -/
theorem unquoteLoop_pair {ds es : List Nat} {hi lo : Nat} (high : Hex4 ds hi) (low : Hex4 es lo)
    (hi₀ : 0xD800 ≤ hi) (hi₁ : hi < 0xDC00) (lo₀ : 0xDC00 ≤ lo) (lo₁ : lo < 0xE000)
    (rest : List Nat) :
    unquoteLoop (0x5C :: 0x75 :: (ds ++ 0x5C :: 0x75 :: (es ++ rest))) =
      (unquoteLoop rest).map (encodeRune (0x10000 + (hi - 0xD800) * 0x400 + (lo - 0xDC00)) ++ ·) := by
  have second : getu4 ((ds ++ 0x5C :: 0x75 :: (es ++ rest)).drop 4) = some lo := by
    rw [high.drop]
    exact getu4_hex4 low rest
  have paired : decodePair hi (some lo) = 0x10000 + (hi - 0xD800) * 0x400 + (lo - 0xDC00) := by
    rw [decodePair, if_pos ⟨hi₀, hi₁, lo₀, lo₁⟩]
    omega
  have skipped : (ds ++ 0x5C :: 0x75 :: (es ++ rest)).drop 10 = rest := by
    cases high
    cases low
    rfl
  rw [unquoteLoop_u (getu4_hex4 high _), if_pos (by simp [isSurrogate]; omega), second, paired,
    if_pos (by unfold runeError; omega), skipped]

/-- An escaped surrogate that starts no pair is resolved to U+FFFD. -/
theorem unquoteLoop_lone {ds : List Nat} {s : Nat} {rest : List Nat} (hex : Hex4 ds s)
    (s₀ : 0xD800 ≤ s) (s₁ : s < 0xE000)
    (unpaired : ∀ es lo tail, rest = 0x5C :: 0x75 :: (es ++ tail) → Hex4 es lo →
      ¬ (s < 0xDC00 ∧ 0xDC00 ≤ lo ∧ lo < 0xE000)) :
    unquoteLoop (0x5C :: 0x75 :: (ds ++ rest)) = (unquoteLoop rest).map (encodeRune 0xFFFD ++ ·) := by
  have single : decodePair s (getu4 rest) = runeError := by
    cases found : getu4 rest with
    | none => rfl
    | some lo =>
      obtain ⟨g1, g2, g3, g4, tail, rfl⟩ := getu4_shape found
      have read : Hex4 [g1, g2, g3, g4] lo := by
        simp only [getu4, Option.bind_eq_bind, Option.bind_eq_some, Option.pure_def,
          Option.some.injEq] at found
        obtain ⟨d1, e1, d2, e2, d3, e3, d4, e4, rfl⟩ := found
        exact .mk e1 e2 e3 e4
      have notPair := unpaired [g1, g2, g3, g4] lo tail rfl read
      rw [decodePair, if_neg (by omega)]
  rw [unquoteLoop_u (getu4_hex4 hex rest), if_pos (by simp [isSurrogate]; omega), hex.drop,
    single, if_neg (by simp), runeError]

/-- A byte that starts the UTF-8 of no character is read by `utf8.DecodeRune` as an error. -/
theorem decodeRune_eq_error {b : Nat} {rest : List Nat} (high : 0x80 ≤ b)
    (noRune : ∀ r tail, validRune r → b :: rest ≠ encodeRune r ++ tail) :
    decodeRune (b :: rest) = (runeError, 1) := by
  by_contra valid
  have written := encodeRune_decodeRune (show runeSelf ≤ b from high) valid
  obtain ⟨k, size⟩ : ∃ k, (decodeRune (b :: rest)).2 = k + 1 :=
    ⟨_, (Nat.succ_pred_eq_of_pos (one_le_decodeRune_size b rest)).symm⟩
  refine noRune _ (rest.drop k) (validRune_decodeRune b rest) ?_
  rw [written, size, List.take_succ_cons, List.cons_append, List.take_append_drop]

/-- A byte that starts the UTF-8 of no character is resolved to U+FFFD. -/
theorem unquoteLoop_invalid {b : Nat} {rest : List Nat} (high : 0x80 ≤ b)
    (noRune : ∀ r tail, validRune r → b :: rest ≠ encodeRune r ++ tail) :
    unquoteLoop (b :: rest) = (unquoteLoop rest).map (encodeRune 0xFFFD ++ ·) := by
  rw [unquoteLoop.eq_def]
  simp only [if_neg (show b ≠ 0x5C by omega), if_neg (show ¬ (b = 0x22 ∨ b < 0x20) by omega),
    if_neg (show ¬ b < runeSelf by unfold runeSelf; omega), decodeRune_eq_error high noRune]
  rfl

/-- The second loop of `unquoteBytes` writes the UTF-8 of what a literal denotes. -/
theorem unquoteLoop_denotes {body rs : List Nat} (meaning : Denotes body rs) :
    unquoteLoop body = some (rs.flatMap encodeRune) := by
  induction meaning with
  | nil => rw [unquoteLoop.eq_def]; rfl
  | char valid printable notQuote notBackslash _ ih =>
    rw [unquoteLoop_char valid printable notQuote notBackslash, ih]; rfl
  | escape meaning _ ih => rw [unquoteLoop_escape meaning, ih]; rfl
  | unicode hex notSurrogate _ ih => rw [unquoteLoop_unicode hex notSurrogate, ih]; rfl
  | pair high low hi₀ hi₁ lo₀ lo₁ _ ih => rw [unquoteLoop_pair high low hi₀ hi₁ lo₀ lo₁, ih]; rfl
  | lone hex s₀ s₁ unpaired _ ih => rw [unquoteLoop_lone hex s₀ s₁ unpaired, ih]; rfl
  | invalid high noRune _ ih => rw [unquoteLoop_invalid high noRune, ih]; rfl

/-! ## Every literal the scanner accepts has a meaning -/

/-- The escapes of one character that the scanner knows all have a meaning. -/
theorem escapeMeaning_of_escapable {e : Nat} (known : escapable e = true) :
    ∃ r, escapeMeaning e = some r := by
  simp only [escapable, decide_eq_true_eq] at known
  rcases known with rfl | rfl | rfl | rfl | rfl | rfl | rfl | rfl <;> exact ⟨_, rfl⟩

/-- Four digits the scanner accepts write a number. -/
theorem hex4_of_digits {h1 h2 h3 h4 : Nat}
    (digits : [h1, h2, h3, h4].all (fun h => (hexValue h).isSome) = true) :
    ∃ r, Hex4 [h1, h2, h3, h4] r := by
  simp only [List.all_cons, List.all_nil, Bool.and_true, Bool.and_eq_true,
    Option.isSome_iff_exists] at digits
  obtain ⟨⟨d1, e1⟩, ⟨d2, e2⟩, ⟨d3, e3⟩, ⟨d4, e4⟩⟩ := digits
  exact ⟨_, .mk e1 e2 e3 e4⟩

/-- A byte that `utf8.DecodeRune` reads as an error starts the UTF-8 of no character. -/
theorem no_rune_of_decodeRune_error {b : Nat} {rest : List Nat}
    (error : decodeRune (b :: rest) = (runeError, 1)) :
    ∀ r tail, validRune r → b :: rest ≠ encodeRune r ++ tail := by
  intro r tail valid spelled
  have decoded := decodeRune_encodeRune valid tail
  rw [← spelled, error, Prod.mk.injEq] at decoded
  obtain ⟨rfl, long⟩ := decoded
  exact absurd long (by decide)

/-- Every literal the scanner accepts denotes characters. -/
theorem denotes_of_escaped : ∀ {s : List Nat}, Escaped s → ∃ rs, Denotes s rs
  | [], _ => ⟨[], .nil⟩
  | b :: rest, escaped => by
    cases escaped with
    | byte plainByte tail =>
      obtain ⟨printable, notQuote, notBackslash⟩ := plainByte
      by_cases ascii : b < runeSelf
      · obtain ⟨rs, meaning⟩ := denotes_of_escaped tail
        have char := Denotes.char (by unfold validRune runeSelf at *; omega) printable notQuote
          notBackslash meaning
        rw [encodeRune_ascii ascii, List.singleton_append] at char
        exact ⟨_, char⟩
      have high : runeSelf ≤ b := Nat.le_of_not_lt ascii
      by_cases error : decodeRune (b :: rest) = (runeError, 1)
      · obtain ⟨rs, meaning⟩ := denotes_of_escaped tail
        exact ⟨_, .invalid high (no_rune_of_decodeRune_error error) meaning⟩
      obtain ⟨k, size⟩ : ∃ k, (decodeRune (b :: rest)).2 = k + 1 :=
        ⟨_, (Nat.succ_pred_eq_of_pos (one_le_decodeRune_size b rest)).symm⟩
      have later : Escaped (rest.drop k) := tail.drop k fun x mem => by
        have := decodeRune_tail_high high rest x (by rwa [size, Nat.add_sub_cancel])
        unfold runeSelf at this
        omega
      have above := (decodeRune_high_scalar high rest).2 error
      unfold runeSelf at above
      obtain ⟨rs, meaning⟩ := denotes_of_escaped later
      have char := Denotes.char (validRune_decodeRune b rest) (by omega) (by omega) (by omega)
        meaning
      rw [encodeRune_decodeRune high error, size, List.take_succ_cons, List.cons_append,
        List.take_append_drop] at char
      exact ⟨_, char⟩
    | escape known tail =>
      obtain ⟨r, meaning⟩ := escapeMeaning_of_escapable known
      obtain ⟨rs, later⟩ := denotes_of_escaped tail
      exact ⟨r :: rs, .escape meaning later⟩
    | @unicode h1 h2 h3 h4 rest' digits tail =>
      obtain ⟨rr, hex⟩ := hex4_of_digits digits
      by_cases surrogate : 0xD800 ≤ rr ∧ rr < 0xE000
      · by_cases paired : ∃ es lo after, rest' = 0x5C :: 0x75 :: (es ++ after) ∧ Hex4 es lo ∧
            rr < 0xDC00 ∧ 0xDC00 ≤ lo ∧ lo < 0xE000
        · obtain ⟨es, lo, after, rfl, low, hi₁, lo₀, lo₁⟩ := paired
          cases low with
          | mk e1 e2 e3 e4 =>
            obtain ⟨rs, meaning⟩ := denotes_of_escaped tail.of_unicode
            exact ⟨_, .pair hex (.mk e1 e2 e3 e4) surrogate.1 hi₁ lo₀ lo₁ meaning⟩
        · obtain ⟨rs, meaning⟩ := denotes_of_escaped tail
          exact ⟨_, .lone hex surrogate.1 surrogate.2
            (fun es lo after spelled low ⟨hi₁, lo₀, lo₁⟩ =>
              paired ⟨es, lo, after, spelled, low, hi₁, lo₀, lo₁⟩) meaning⟩
      · obtain ⟨rs, meaning⟩ := denotes_of_escaped tail
        exact ⟨_, .unicode hex surrogate meaning⟩
termination_by s => s.length
decreasing_by all_goals simp_wf; subst_vars; (try simp only [List.length_cons, List.length_append]); omega

/-! ## `json.Unmarshal` returns what a literal means -/

/-- `json.Unmarshal` into a string returns exactly the UTF-8 of the characters its literal
denotes: after whitespace, a string literal the scanner reads to its closing quote, with
only whitespace after it, whose bytes denote the characters `rs` gives the UTF-8 of `rs`,
every escape resolved as JSON says, an escaped surrogate that starts no pair and a byte that
starts no UTF-8 character each replaced by U+FFFD, every other character copied; `null`
gives the empty string; nothing else is read. -/
theorem unmarshalString_iff_denotes (data v : List Nat) :
    unmarshalString data = some v ↔
      (∃ rest body after rs, data.dropWhile isSpace = 0x22 :: rest ∧
        scanString rest = some (body, after) ∧ after.all isSpace = true ∧
        Denotes body rs ∧ v = rs.flatMap encodeRune) ∨
      ∃ after, data.dropWhile isSpace = 0x6E :: 0x75 :: 0x6C :: 0x6C :: after ∧
        after.all isSpace = true ∧ v = [] := by
  constructor
  · intro h
    rcases unmarshalString_eq_some h with
      ⟨rest, body, after, trimmed, scanned, trailing, read⟩ | null
    · obtain ⟨rs, meaning⟩ := denotes_of_escaped (escaped_of_scanString scanned)
      rw [unquote_eq_unquoteLoop, unquoteLoop_denotes meaning, Option.some.injEq] at read
      exact .inl ⟨rest, body, after, rs, trimmed, scanned, trailing, meaning, read.symm⟩
    · exact .inr null
  · rintro (⟨rest, body, after, rs, trimmed, scanned, trailing, meaning, rfl⟩ |
      ⟨after, trimmed, trailing, rfl⟩)
    · rw [unmarshalString, trimmed]
      simp only [scanned, trailing, if_true, unquote_eq_unquoteLoop, unquoteLoop_denotes meaning]
    · rw [unmarshalString, trimmed]
      simp [trailing]

/-- `"\n\ud800"`: the escape of a line feed, then a lone surrogate. -/
example : unmarshalString [0x22, 0x5C, 0x6E, 0x5C, 0x75, 0x64, 0x38, 0x30, 0x30, 0x22] =
    some [0x0A, 0xEF, 0xBF, 0xBD] := by
  simp [unmarshalString, isSpace, scanString, escapable, hexValue, unquote, ordinaryLength,
    unquoteLoop, getu4, isSurrogate, decodePair, runeError, encodeRune]

end DeveloperGateway.Json
