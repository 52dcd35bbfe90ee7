/-
# UTF-8, as `unicode/utf8` reads and writes it

The JSON string codec of `encoding/json` reads a Go string one rune at a time with
`utf8.DecodeRune` and writes runes back with `utf8.EncodeRune`. A Go string is a list of
bytes here, each below 256. Two facts carry the codec's round trip: decoding the bytes
of a valid rune gives the rune and their length, and re-encoding a rune that decoded
gives the bytes it was read from.
-/

import Mathlib.Data.List.Basic

namespace DeveloperGateway.Json

/-- `utf8.RuneError`, U+FFFD, the rune that stands for bytes that are not UTF-8. -/
def runeError : Nat := 0xFFFD

/-- `utf8.RuneSelf`: a byte below it is a rune by itself. -/
def runeSelf : Nat := 0x80

/-- A Unicode scalar value: a rune that UTF-8 can encode. -/
def validRune (r : Nat) : Prop := r < 0x110000 ∧ ¬ (0xD800 ≤ r ∧ r ≤ 0xDFFF)

instance (r : Nat) : Decidable (validRune r) := inferInstanceAs (Decidable (_ ∧ _))

/-- The `first` and `acceptRanges` tables of `utf8.DecodeRune` for a byte from `0x80` up:
the length of the sequence it starts and the range of its second byte; none for a byte
that starts no sequence. -/
def acceptRange (p0 : Nat) : Option (Nat × Nat × Nat) :=
  if p0 < 0xC2 then none
  else if p0 < 0xE0 then some (2, 0x80, 0xBF)
  else if p0 = 0xE0 then some (3, 0xA0, 0xBF)
  else if p0 < 0xED then some (3, 0x80, 0xBF)
  else if p0 = 0xED then some (3, 0x80, 0x9F)
  else if p0 < 0xF0 then some (3, 0x80, 0xBF)
  else if p0 = 0xF0 then some (4, 0x90, 0xBF)
  else if p0 < 0xF4 then some (4, 0x80, 0xBF)
  else if p0 = 0xF4 then some (4, 0x80, 0x8F)
  else none

/-- Whether a byte continues a sequence: `locb ≤ b ≤ hicb`. -/
def continuation (b : Nat) : Bool := 0x80 ≤ b ∧ b ≤ 0xBF

/-- `utf8.DecodeRune`: the rune the bytes start with and its length in bytes;
`(RuneError, 1)` for a byte that starts no valid sequence, `(RuneError, 0)` for none. -/
def decodeRune : List Nat → Nat × Nat
  | [] => (runeError, 0)
  | p0 :: rest =>
    if p0 < runeSelf then (p0, 1)
    else
      match acceptRange p0, rest with
      | some (size, lo, hi), b1 :: rest =>
        if b1 < lo ∨ hi < b1 then (runeError, 1)
        else if size = 2 then (p0 % 32 * 64 + b1 % 64, 2)
        else
          match rest with
          | b2 :: rest =>
            if !continuation b2 then (runeError, 1)
            else if size = 3 then (p0 % 16 * 4096 + b1 % 64 * 64 + b2 % 64, 3)
            else
              match rest with
              | b3 :: _ =>
                if !continuation b3 then (runeError, 1)
                else (p0 % 8 * 262144 + b1 % 64 * 4096 + b2 % 64 * 64 + b3 % 64, 4)
              | [] => (runeError, 1)
          | [] => (runeError, 1)
      | _, _ => (runeError, 1)

/-- `utf8.EncodeRune`: one to four bytes; a rune that is no scalar value is written as
`RuneError`, `EF BF BD`. -/
def encodeRune (r : Nat) : List Nat :=
  if r < 0x80 then [r]
  else if r < 0x800 then [0xC0 + r / 64, 0x80 + r % 64]
  else if 0x10FFFF < r ∨ (0xD800 ≤ r ∧ r ≤ 0xDFFF) then [0xEF, 0xBF, 0xBD]
  else if r < 0x10000 then [0xE0 + r / 4096, 0x80 + r / 64 % 64, 0x80 + r % 64]
  else [0xF0 + r / 262144, 0x80 + r / 4096 % 64, 0x80 + r / 64 % 64, 0x80 + r % 64]

/-- The lead bytes of two-byte sequences. -/
theorem acceptRange_two (p0 : Nat) (lead : 0xC2 ≤ p0 ∧ p0 < 0xE0) :
    acceptRange p0 = some (2, 0x80, 0xBF) := by
  unfold acceptRange
  rw [if_neg (by omega), if_pos lead.2]

/-- The lead bytes of three-byte sequences: `E0` asks more of its second byte, against
overlong forms, and `ED` less, against surrogates. -/
theorem acceptRange_three (p0 : Nat) (lead : 0xE0 ≤ p0 ∧ p0 < 0xF0) :
    acceptRange p0 = some (3, if p0 = 0xE0 then 0xA0 else 0x80,
      if p0 = 0xED then 0x9F else 0xBF) := by
  unfold acceptRange
  rw [if_neg (by omega), if_neg (by omega)]
  by_cases e0 : p0 = 0xE0
  · rw [if_pos e0, if_pos e0, if_neg (by omega)]
  rw [if_neg e0, if_neg e0]
  by_cases low : p0 < 0xED
  · rw [if_pos low, if_neg (by omega)]
  rw [if_neg low]
  by_cases ed : p0 = 0xED
  · rw [if_pos ed, if_pos ed]
  rw [if_neg ed, if_neg ed, if_pos (by omega)]

/-- The lead bytes of four-byte sequences: `F0` asks more of its second byte, against
overlong forms, and `F4` less, to stay below U+110000. -/
theorem acceptRange_four (p0 : Nat) (lead : 0xF0 ≤ p0 ∧ p0 ≤ 0xF4) :
    acceptRange p0 = some (4, if p0 = 0xF0 then 0x90 else 0x80,
      if p0 = 0xF4 then 0x8F else 0xBF) := by
  unfold acceptRange
  rw [if_neg (by omega), if_neg (by omega), if_neg (by omega), if_neg (by omega),
    if_neg (by omega), if_neg (by omega)]
  by_cases f0 : p0 = 0xF0
  · rw [if_pos f0, if_pos f0, if_neg (by omega)]
  rw [if_neg f0, if_neg f0]
  by_cases low : p0 < 0xF4
  · rw [if_pos low, if_neg (by omega)]
  rw [if_neg low, if_pos (by omega), if_pos (by omega)]

/-- `acceptRange` knows three kinds of lead byte, with their second-byte ranges. -/
theorem acceptRange_eq_some {p0 size lo hi : Nat}
    (h : acceptRange p0 = some (size, lo, hi)) :
    (size = 2 ∧ 0xC2 ≤ p0 ∧ p0 < 0xE0 ∧ lo = 0x80 ∧ hi = 0xBF) ∨
      (size = 3 ∧ 0xE0 ≤ p0 ∧ p0 < 0xF0 ∧ lo = (if p0 = 0xE0 then 0xA0 else 0x80) ∧
        hi = if p0 = 0xED then 0x9F else 0xBF) ∨
      (size = 4 ∧ 0xF0 ≤ p0 ∧ p0 ≤ 0xF4 ∧ lo = (if p0 = 0xF0 then 0x90 else 0x80) ∧
        hi = if p0 = 0xF4 then 0x8F else 0xBF) := by
  by_cases two : 0xC2 ≤ p0 ∧ p0 < 0xE0
  · rw [acceptRange_two p0 two] at h
    cases h
    exact .inl ⟨rfl, two.1, two.2, rfl, rfl⟩
  by_cases three : 0xE0 ≤ p0 ∧ p0 < 0xF0
  · rw [acceptRange_three p0 three] at h
    cases h
    exact .inr (.inl ⟨rfl, three.1, three.2, rfl, rfl⟩)
  by_cases four : 0xF0 ≤ p0 ∧ p0 ≤ 0xF4
  · rw [acceptRange_four p0 four] at h
    cases h
    exact .inr (.inr ⟨rfl, four.1, four.2, rfl, rfl⟩)
  unfold acceptRange at h
  by_cases low : p0 < 0xC2
  · rw [if_pos low] at h
    cases h
  · rw [if_neg low, if_neg (by omega), if_neg (by omega), if_neg (by omega), if_neg (by omega),
      if_neg (by omega), if_neg (by omega), if_neg (by omega), if_neg (by omega)] at h
    cases h

/-- A lead byte that `acceptRange` knows is not ASCII. -/
theorem runeSelf_le_of_acceptRange {p0 : Nat} {accepted : Nat × Nat × Nat}
    (h : acceptRange p0 = some accepted) : runeSelf ≤ p0 := by
  obtain ⟨size, lo, hi⟩ := accepted
  unfold runeSelf
  rcases acceptRange_eq_some h with ⟨-, lead, -⟩ | ⟨-, lead, -⟩ | ⟨-, lead, -⟩ <;> omega

/-- A two-byte sequence decodes to the bits it carries. -/
theorem decodeRune_two {p0 b1 lo hi : Nat} (accepted : acceptRange p0 = some (2, lo, hi))
    (second : lo ≤ b1 ∧ b1 ≤ hi) (rest : List Nat) :
    decodeRune (p0 :: b1 :: rest) = (p0 % 32 * 64 + b1 % 64, 2) := by
  have := runeSelf_le_of_acceptRange accepted
  simp only [decodeRune, accepted, if_neg (show ¬ p0 < runeSelf by omega),
    if_neg (show ¬ (b1 < lo ∨ hi < b1) by omega), if_true]

/-- A three-byte sequence decodes to the bits it carries. -/
theorem decodeRune_three {p0 b1 b2 lo hi : Nat} (accepted : acceptRange p0 = some (3, lo, hi))
    (second : lo ≤ b1 ∧ b1 ≤ hi) (third : continuation b2 = true) (rest : List Nat) :
    decodeRune (p0 :: b1 :: b2 :: rest) = (p0 % 16 * 4096 + b1 % 64 * 64 + b2 % 64, 3) := by
  have := runeSelf_le_of_acceptRange accepted
  simp only [decodeRune, accepted, if_neg (show ¬ p0 < runeSelf by omega),
    if_neg (show ¬ (b1 < lo ∨ hi < b1) by omega), if_neg (show (3 : Nat) ≠ 2 by decide), third,
    Bool.not_true, Bool.false_eq_true, if_false, if_true]

/-- A four-byte sequence decodes to the bits it carries. -/
theorem decodeRune_four {p0 b1 b2 b3 lo hi : Nat} (accepted : acceptRange p0 = some (4, lo, hi))
    (second : lo ≤ b1 ∧ b1 ≤ hi) (third : continuation b2 = true)
    (fourth : continuation b3 = true) (rest : List Nat) :
    decodeRune (p0 :: b1 :: b2 :: b3 :: rest) =
      (p0 % 8 * 262144 + b1 % 64 * 4096 + b2 % 64 * 64 + b3 % 64, 4) := by
  have := runeSelf_le_of_acceptRange accepted
  simp only [decodeRune, accepted, if_neg (show ¬ p0 < runeSelf by omega),
    if_neg (show ¬ (b1 < lo ∨ hi < b1) by omega), if_neg (show (4 : Nat) ≠ 2 by decide),
    if_neg (show (4 : Nat) ≠ 3 by decide), third, fourth, Bool.not_true, Bool.false_eq_true,
    if_false]

/-- The six low bits of a rune, as a continuation byte. -/
theorem continuation_low (n : Nat) : continuation (0x80 + n % 64) = true := by
  simp only [continuation, decide_eq_true_eq]
  omega

/-- A continuation byte carries the six bits it was made from. -/
theorem continuation_payload (n : Nat) : (0x80 + n % 64) % 64 = n % 64 := by
  omega

/-- Decoding the bytes of a scalar value gives it back, with their length. -/
theorem decodeRune_encodeRune {r : Nat} (valid : validRune r) (rest : List Nat) :
    decodeRune (encodeRune r ++ rest) = (r, (encodeRune r).length) := by
  obtain ⟨below, notSurrogate⟩ := valid
  unfold encodeRune
  by_cases one : r < 0x80
  · simp [one, decodeRune, runeSelf]
  by_cases two : r < 0x800
  · have second : 0x80 ≤ 0x80 + r % 64 ∧ 0x80 + r % 64 ≤ 0xBF := by omega
    simp only [one, two, if_false, if_true, List.cons_append, List.nil_append,
      decodeRune_two (acceptRange_two (0xC0 + r / 64) ⟨by omega, by omega⟩) second, List.length_cons,
      List.length_nil, Prod.mk.injEq, and_true, continuation_payload]
    omega
  have scalar : ¬ (0x10FFFF < r ∨ (0xD800 ≤ r ∧ r ≤ 0xDFFF)) := by omega
  by_cases three : r < 0x10000
  · have second : (if 0xE0 + r / 4096 = 0xE0 then 0xA0 else 0x80) ≤ 0x80 + r / 64 % 64 ∧
        0x80 + r / 64 % 64 ≤ if 0xE0 + r / 4096 = 0xED then 0x9F else 0xBF :=
      ⟨by split <;> omega, by split <;> omega⟩
    simp only [one, two, three, scalar, if_false, if_true, List.cons_append, List.nil_append,
      decodeRune_three (acceptRange_three (0xE0 + r / 4096) ⟨by omega, by omega⟩) second
        (continuation_low r),
      List.length_cons, List.length_nil, Prod.mk.injEq, and_true, continuation_payload]
    omega
  · have second : (if 0xF0 + r / 262144 = 0xF0 then 0x90 else 0x80) ≤ 0x80 + r / 4096 % 64 ∧
        0x80 + r / 4096 % 64 ≤ if 0xF0 + r / 262144 = 0xF4 then 0x8F else 0xBF :=
      ⟨by split <;> omega, by split <;> omega⟩
    simp only [one, two, three, scalar, if_false, List.cons_append, List.nil_append,
      decodeRune_four (acceptRange_four (0xF0 + r / 262144) ⟨by omega, by omega⟩) second
        (continuation_low (r / 64)) (continuation_low r),
      List.length_cons, List.length_nil, Prod.mk.injEq, and_true, continuation_payload]
    omega

/-- Everything `decodeRune` can make of bytes that start above ASCII: `RuneError` for one
byte, or a sequence of two, three or four bytes that its tables accept. -/
theorem decodeRune_high {c : Nat} (high : runeSelf ≤ c) (rest : List Nat) :
    decodeRune (c :: rest) = (runeError, 1) ∨
      (∃ lo hi b1 tail, acceptRange c = some (2, lo, hi) ∧ rest = b1 :: tail ∧
        lo ≤ b1 ∧ b1 ≤ hi ∧ decodeRune (c :: rest) = (c % 32 * 64 + b1 % 64, 2)) ∨
      (∃ lo hi b1 b2 tail, acceptRange c = some (3, lo, hi) ∧ rest = b1 :: b2 :: tail ∧
        lo ≤ b1 ∧ b1 ≤ hi ∧ continuation b2 = true ∧
        decodeRune (c :: rest) = (c % 16 * 4096 + b1 % 64 * 64 + b2 % 64, 3)) ∨
      (∃ lo hi b1 b2 b3 tail, acceptRange c = some (4, lo, hi) ∧
        rest = b1 :: b2 :: b3 :: tail ∧ lo ≤ b1 ∧ b1 ≤ hi ∧ continuation b2 = true ∧
        continuation b3 = true ∧
        decodeRune (c :: rest) = (c % 8 * 262144 + b1 % 64 * 4096 + b2 % 64 * 64 + b3 % 64, 4)) := by
  have lead : ¬ c < runeSelf := by omega
  cases accepted : acceptRange c with
  | none => exact .inl (by simp [decodeRune, lead, accepted])
  | some range =>
    obtain ⟨size, lo, hi⟩ := range
    cases rest with
    | nil => exact .inl (by simp [decodeRune, lead, accepted])
    | cons b1 tail =>
      by_cases second : lo ≤ b1 ∧ b1 ≤ hi
      · rcases acceptRange_eq_some accepted with ⟨rfl, -⟩ | ⟨rfl, -⟩ | ⟨rfl, -⟩
        · exact .inr (.inl ⟨lo, hi, b1, tail, rfl, rfl, second.1, second.2,
            decodeRune_two accepted second tail⟩)
        · rcases tail with _ | ⟨b2, tail⟩
          · exact .inl (by simp [decodeRune, lead, accepted, second])
          by_cases third : continuation b2 = true
          · exact .inr (.inr (.inl ⟨lo, hi, b1, b2, tail, rfl, rfl, second.1, second.2,
              third, decodeRune_three accepted second third tail⟩))
          · exact .inl (by simp [decodeRune, lead, accepted, second, third])
        · rcases tail with _ | ⟨b2, _ | ⟨b3, tail⟩⟩
          · exact .inl (by simp [decodeRune, lead, accepted, second])
          · by_cases third : continuation b2 = true
            · exact .inl (by simp [decodeRune, lead, accepted, second, third])
            · exact .inl (by simp [decodeRune, lead, accepted, second, third])
          by_cases third : continuation b2 = true
          · by_cases fourth : continuation b3 = true
            · exact .inr (.inr (.inr ⟨lo, hi, b1, b2, b3, tail, rfl, rfl, second.1,
                second.2, third, fourth, decodeRune_four accepted second third fourth tail⟩))
            · exact .inl (by simp [decodeRune, lead, accepted, second, third, fourth])
          · exact .inl (by simp [decodeRune, lead, accepted, second, third])
      · exact .inl (by simp [decodeRune, lead, accepted, second, Nat.not_le.mp, not_and_or])

/-- A continuation byte, as bounds. -/
theorem continuation_iff {b : Nat} : continuation b = true ↔ 0x80 ≤ b ∧ b ≤ 0xBF := by
  simp [continuation]

/-- A rune of the two-byte range is written as its two groups of bits. -/
theorem encodeRune_two {a d : Nat} (low : d < 64) (range : 0x80 ≤ a * 64 + d ∧ a * 64 + d < 0x800) :
    encodeRune (a * 64 + d) = [0xC0 + a, 0x80 + d] := by
  rw [encodeRune, if_neg (by omega), if_pos range.2]
  simp only [List.cons.injEq, and_true]
  omega

/-- A scalar value of the three-byte range is written as its three groups of bits. -/
theorem encodeRune_three {a b d : Nat} (mid : b < 64) (low : d < 64)
    (range : 0x800 ≤ a * 4096 + b * 64 + d ∧ a * 4096 + b * 64 + d < 0xD800 ∨
      0xE000 ≤ a * 4096 + b * 64 + d ∧ a * 4096 + b * 64 + d < 0x10000) :
    encodeRune (a * 4096 + b * 64 + d) = [0xE0 + a, 0x80 + b, 0x80 + d] := by
  rw [encodeRune, if_neg (by omega), if_neg (by omega), if_neg (by omega), if_pos (by omega)]
  simp only [List.cons.injEq, and_true]
  omega

/-- A rune of the four-byte range is written as its four groups of bits. -/
theorem encodeRune_four {a b e d : Nat} (high : b < 64) (mid : e < 64) (low : d < 64)
    (range : 0x10000 ≤ a * 262144 + b * 4096 + e * 64 + d ∧
      a * 262144 + b * 4096 + e * 64 + d < 0x110000) :
    encodeRune (a * 262144 + b * 4096 + e * 64 + d) =
      [0xF0 + a, 0x80 + b, 0x80 + e, 0x80 + d] := by
  rw [encodeRune, if_neg (by omega), if_neg (by omega), if_neg (by omega), if_neg (by omega)]
  simp only [List.cons.injEq, and_true]
  omega

/-- A rune decoded from bytes above ASCII that are valid UTF-8 is written back as the
bytes it was read from. -/
theorem encodeRune_decodeRune {c : Nat} {rest : List Nat} (high : runeSelf ≤ c)
    (valid : decodeRune (c :: rest) ≠ (runeError, 1)) :
    encodeRune (decodeRune (c :: rest)).1 = (c :: rest).take (decodeRune (c :: rest)).2 := by
  rcases decodeRune_high high rest with invalid | ⟨lo, hi, b1, tail, accepted, rfl, low, up, decoded⟩ |
    ⟨lo, hi, b1, b2, tail, accepted, rfl, low, up, third, decoded⟩ |
    ⟨lo, hi, b1, b2, b3, tail, accepted, rfl, low, up, third, fourth, decoded⟩
  · exact absurd invalid valid
  · rcases acceptRange_eq_some accepted with ⟨-, lead, lead', rfl, rfl⟩ | ⟨bad, -⟩ | ⟨bad, -⟩
    · rw [decoded, encodeRune_two (Nat.mod_lt _ (by decide)) (by omega)]
      simp only [List.take_succ_cons, List.take_zero, List.cons.injEq, and_true]
      omega
    all_goals omega
  · rcases acceptRange_eq_some accepted with ⟨bad, -⟩ | ⟨-, lead, lead', rfl, rfl⟩ | ⟨bad, -⟩
    · omega
    · rw [continuation_iff] at third
      have second : 0x80 ≤ b1 ∧ b1 ≤ 0xBF := by split at low <;> split at up <;> omega
      have bounds : 0x800 ≤ c % 16 * 4096 + b1 % 64 * 64 + b2 % 64 ∧
          c % 16 * 4096 + b1 % 64 * 64 + b2 % 64 < 0xD800 ∨
          0xE000 ≤ c % 16 * 4096 + b1 % 64 * 64 + b2 % 64 ∧
          c % 16 * 4096 + b1 % 64 * 64 + b2 % 64 < 0x10000 := by
        split at low <;> split at up <;> omega
      rw [decoded, encodeRune_three (Nat.mod_lt _ (by decide)) (Nat.mod_lt _ (by decide)) bounds]
      simp only [List.take_succ_cons, List.take_zero, List.cons.injEq, and_true]
      omega
    · omega
  · rcases acceptRange_eq_some accepted with ⟨bad, -⟩ | ⟨bad, -⟩ | ⟨-, lead, lead', rfl, rfl⟩
    · omega
    · omega
    · rw [continuation_iff] at third fourth
      have second : 0x80 ≤ b1 ∧ b1 ≤ 0xBF := by split at low <;> split at up <;> omega
      have bounds :
          0x10000 ≤ c % 8 * 262144 + b1 % 64 * 4096 + b2 % 64 * 64 + b3 % 64 ∧
          c % 8 * 262144 + b1 % 64 * 4096 + b2 % 64 * 64 + b3 % 64 < 0x110000 := by
        split at low <;> split at up <;> omega
      rw [decoded, encodeRune_four (Nat.mod_lt _ (by decide)) (Nat.mod_lt _ (by decide))
        (Nat.mod_lt _ (by decide)) bounds]
      simp only [List.take_succ_cons, List.take_zero, List.cons.injEq, and_true]
      omega

/-- An ASCII rune is its own byte. -/
theorem encodeRune_ascii {r : Nat} (ascii : r < runeSelf) : encodeRune r = [r] := by
  simp only [encodeRune, runeSelf] at ascii ⊢
  rw [if_pos ascii]

/-- A scalar value above ASCII is written as a lead byte and one to three more, every one
of them above ASCII. -/
theorem encodeRune_high {r : Nat} (valid : validRune r) (high : runeSelf ≤ r) :
    ∃ b tail, encodeRune r = b :: tail ∧ tail ≠ [] ∧ ∀ x ∈ b :: tail, runeSelf ≤ x := by
  obtain ⟨below, notSurrogate⟩ := valid
  unfold encodeRune runeSelf at *
  rw [if_neg (by omega)]
  by_cases two : r < 0x800
  · rw [if_pos two]
    exact ⟨_, _, rfl, List.cons_ne_nil _ _, by simp; omega⟩
  rw [if_neg two, if_neg (by omega)]
  by_cases three : r < 0x10000
  · rw [if_pos three]
    exact ⟨_, _, rfl, List.cons_ne_nil _ _, by simp; omega⟩
  rw [if_neg three]
  exact ⟨_, _, rfl, List.cons_ne_nil _ _, by simp; omega⟩

/-- `decodeRune` reads at least one byte of a non-empty input. -/
theorem one_le_decodeRune_size (c : Nat) (rest : List Nat) : 1 ≤ (decodeRune (c :: rest)).2 := by
  by_cases ascii : c < runeSelf
  · simp [decodeRune, ascii]
  rcases decodeRune_high (Nat.le_of_not_lt ascii) rest with decoded |
    ⟨_, _, _, _, _, _, _, _, decoded⟩ | ⟨_, _, _, _, _, _, _, _, _, _, decoded⟩ |
    ⟨_, _, _, _, _, _, _, _, _, _, _, _, decoded⟩ <;>
    simp [decoded]

end DeveloperGateway.Json
