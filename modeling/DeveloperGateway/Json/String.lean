/-
# JSON strings, as `encoding/json` writes and reads them

`json.Marshal` of a Go string is `encodeState.string` with HTML escaping: safe ASCII is
copied, other ASCII is escaped, a byte that starts no UTF-8 sequence becomes the escape
`\ufffd`, U+2028 and U+2029 are escaped, and every other rune is copied.
`json.Unmarshal` into a string checks the input with the scanner and unquotes the
literal with `unquoteBytes`, which coerces what it reads to UTF-8. The two compose to
the identity on valid UTF-8 only: a byte that is not UTF-8 comes back as U+FFFD.
-/

import DeveloperGateway.Json.Utf8

namespace DeveloperGateway.Json

/-! ## `json.Marshal` -/

/-- `hex`, the lower-case digits `encodeState.string` writes escapes with. -/
def hexDigit (n : Nat) : Nat := if n < 10 then 0x30 + n else 0x57 + n

/-- `htmlSafeSet`: the ASCII bytes copied as they are, all printable ones (and DEL) but
the quote, the backslash, `<`, `>` and `&`. -/
def htmlSafe (b : Nat) : Bool :=
  0x20 ≤ b ∧ b < 0x80 ∧ b ≠ 0x22 ∧ b ≠ 0x5C ∧ b ≠ 0x3C ∧ b ≠ 0x3E ∧ b ≠ 0x26

/-- How `encodeState.string` escapes an ASCII byte outside `htmlSafeSet`. -/
def escapeByte (b : Nat) : List Nat :=
  0x5C :: if b = 0x5C ∨ b = 0x22 then [b]
    else if b = 0x0A then [0x6E]
    else if b = 0x0D then [0x72]
    else if b = 0x09 then [0x74]
    else [0x75, 0x30, 0x30, hexDigit (b / 16), hexDigit (b % 16)]

/-- The escape `\ufffd` written for a byte that starts no UTF-8 sequence. -/
def escapedRuneError : List Nat := [0x5C, 0x75, 0x66, 0x66, 0x66, 0x64]

/-- The loop of `encodeState.string` with `escapeHTML`: the bytes between the quotes. -/
def encodeBody : List Nat → List Nat
  | [] => []
  | b :: rest =>
    if b < runeSelf then (if htmlSafe b then [b] else escapeByte b) ++ encodeBody rest
    else
      let decoded := decodeRune (b :: rest)
      if decoded = (runeError, 1) then escapedRuneError ++ encodeBody rest
      else if decoded.1 = 0x2028 ∨ decoded.1 = 0x2029 then
        [0x5C, 0x75, 0x32, 0x30, 0x32, hexDigit (decoded.1 % 16)] ++
          encodeBody (rest.drop (decoded.2 - 1))
      else b :: rest.take (decoded.2 - 1) ++ encodeBody (rest.drop (decoded.2 - 1))
termination_by s => s.length
decreasing_by all_goals simp_wf <;> omega

/-- `json.Marshal` of a string, which never fails. -/
def marshalString (v : List Nat) : List Nat := 0x22 :: encodeBody v ++ [0x22]

/-! ## `json.Unmarshal` into a string -/

/-- JSON's whitespace. -/
def isSpace (c : Nat) : Bool := c = 0x20 ∨ c = 0x09 ∨ c = 0x0A ∨ c = 0x0D

/-- The value of a hexadecimal digit of either case. -/
def hexValue (c : Nat) : Option Nat :=
  if 0x30 ≤ c ∧ c ≤ 0x39 then some (c - 0x30)
  else if 0x61 ≤ c ∧ c ≤ 0x66 then some (c - 0x61 + 10)
  else if 0x41 ≤ c ∧ c ≤ 0x46 then some (c - 0x41 + 10)
  else none

/-- The characters the scanner takes after a backslash, `u` apart. -/
def escapable (c : Nat) : Bool :=
  c = 0x22 ∨ c = 0x5C ∨ c = 0x2F ∨ c = 0x62 ∨ c = 0x66 ∨ c = 0x6E ∨ c = 0x72 ∨ c = 0x74

/-- The scanner's states inside a string, from the byte after the opening quote: the
bytes up to the closing quote and what follows it; none at a control byte, at an escape
it does not know, or at the end of the input. -/
def scanString : List Nat → Option (List Nat × List Nat)
  | [] => none
  | c :: rest =>
    if c = 0x22 then some ([], rest)
    else if c = 0x5C then
      match rest with
      | e :: rest =>
        if escapable e then (scanString rest).map fun (body, after) => (c :: e :: body, after)
        else if e = 0x75 then
          match rest with
          | h1 :: h2 :: h3 :: h4 :: rest =>
            if [h1, h2, h3, h4].all fun h => (hexValue h).isSome then
              (scanString rest).map fun (body, after) => (c :: e :: h1 :: h2 :: h3 :: h4 :: body,
                after)
            else none
          | _ => none
        else none
      | [] => none
    else if c < 0x20 then none
    else (scanString rest).map fun (body, after) => (c :: body, after)

/-- `getu4`: the rune of an escape `\uXXXX` at the start of the bytes. -/
def getu4 : List Nat → Option Nat
  | 0x5C :: 0x75 :: h1 :: h2 :: h3 :: h4 :: _ => do
    let d1 ← hexValue h1
    let d2 ← hexValue h2
    let d3 ← hexValue h3
    let d4 ← hexValue h4
    pure (((d1 * 16 + d2) * 16 + d3) * 16 + d4)
  | _ => none

/-- Whether a rune is a UTF-16 surrogate, `utf16.IsSurrogate`. -/
def isSurrogate (r : Nat) : Bool := 0xD800 ≤ r ∧ r < 0xE000

/-- `utf16.DecodeRune` of a surrogate pair, `RuneError` for anything else. -/
def decodePair (r1 : Nat) : Option Nat → Nat
  | some r2 =>
    if 0xD800 ≤ r1 ∧ r1 < 0xDC00 ∧ 0xDC00 ≤ r2 ∧ r2 < 0xE000 then
      (r1 - 0xD800) * 1024 + (r2 - 0xDC00) + 0x10000
    else runeError
  | none => runeError

/-- The second loop of `unquoteBytes`: escapes are resolved, a quote or a control byte
fails, and every rune is coerced to UTF-8 (a byte that starts no sequence becomes
`RuneError`). -/
def unquoteLoop : List Nat → Option (List Nat)
  | [] => some []
  | c :: rest =>
    if c = 0x5C then
      match rest with
      | e :: rest' =>
        if e = 0x22 ∨ e = 0x5C ∨ e = 0x2F ∨ e = 0x27 then (unquoteLoop rest').map (e :: ·)
        else if e = 0x62 then (unquoteLoop rest').map (0x08 :: ·)
        else if e = 0x66 then (unquoteLoop rest').map (0x0C :: ·)
        else if e = 0x6E then (unquoteLoop rest').map (0x0A :: ·)
        else if e = 0x72 then (unquoteLoop rest').map (0x0D :: ·)
        else if e = 0x74 then (unquoteLoop rest').map (0x09 :: ·)
        else if e = 0x75 then
          match getu4 (c :: rest) with
          | some rr =>
            if isSurrogate rr then
              let paired := decodePair rr (getu4 (rest'.drop 4))
              if paired ≠ runeError then
                (unquoteLoop (rest'.drop 10)).map (encodeRune paired ++ ·)
              else (unquoteLoop (rest'.drop 4)).map (encodeRune runeError ++ ·)
            else (unquoteLoop (rest'.drop 4)).map (encodeRune rr ++ ·)
          | none => none
        else none
      | [] => none
    else if c = 0x22 ∨ c < 0x20 then none
    else if c < runeSelf then (unquoteLoop rest).map (c :: ·)
    else
      let decoded := decodeRune (c :: rest)
      (unquoteLoop (rest.drop (decoded.2 - 1))).map (encodeRune decoded.1 ++ ·)
termination_by s => s.length
decreasing_by all_goals simp_wf <;> omega

/-- The first loop of `unquoteBytes`: the length of the prefix that needs no unquoting,
ASCII other than the quote, the backslash and control bytes, and valid UTF-8. -/
def ordinaryLength : List Nat → Nat
  | [] => 0
  | c :: rest =>
    if c = 0x5C ∨ c = 0x22 ∨ c < 0x20 then 0
    else if c < runeSelf then ordinaryLength rest + 1
    else
      let decoded := decodeRune (c :: rest)
      if decoded = (runeError, 1) then 0
      else ordinaryLength (rest.drop (decoded.2 - 1)) + decoded.2
termination_by s => s.length
decreasing_by all_goals simp_wf <;> omega

/-- `unquoteBytes` on the bytes between the quotes: the bytes themselves when none
needs unquoting, else the ordinary prefix followed by the second loop on the rest. -/
def unquote (s : List Nat) : Option (List Nat) :=
  let r := ordinaryLength s
  if r = s.length then some s else (unquoteLoop (s.drop r)).map (s.take r ++ ·)

/-- `json.Unmarshal` into a string: after whitespace, a string literal that the scanner
accepts, followed by whitespace only, is unquoted; `null` leaves the string empty; any
other input is an error (a syntax error, or a value of another type). -/
def unmarshalString (data : List Nat) : Option (List Nat) :=
  match data.dropWhile isSpace with
  | 0x22 :: rest =>
    match scanString rest with
    | some (body, after) => if after.all isSpace then unquote body else none
    | none => none
  | 0x6E :: 0x75 :: 0x6C :: 0x6C :: after => if after.all isSpace then some [] else none
  | _ => none

/-! ## The round trip on valid UTF-8 -/

/-- What `encodeState.string` writes for one scalar value. -/
def token (r : Nat) : List Nat :=
  if r < runeSelf then (if htmlSafe r then [r] else escapeByte r)
  else if r = 0x2028 ∨ r = 0x2029 then [0x5C, 0x75, 0x32, 0x30, 0x32, hexDigit (r % 16)]
  else encodeRune r

/-- The scanner reads the escape digits back. -/
theorem hexValue_hexDigit {n : Nat} (digit : n < 16) : hexValue (hexDigit n) = some n := by
  unfold hexDigit hexValue
  by_cases low : n < 10
  · rw [if_pos low, if_pos (by omega)]
    congr 1
    omega
  · rw [if_neg low, if_neg (by omega), if_pos (by omega)]
    congr 1
    omega

/-- A byte the scanner passes inside a string: no control byte, quote or backslash. -/
def plain (b : Nat) : Prop := 0x20 ≤ b ∧ b ≠ 0x22 ∧ b ≠ 0x5C

/-- The scanner passes a plain byte on to the literal. -/
theorem scanString_cons_plain {b : Nat} (plainByte : plain b) (rest : List Nat) :
    scanString (b :: rest) = (scanString rest).map fun p => (b :: p.1, p.2) := by
  obtain ⟨printable, notQuote, notBackslash⟩ := plainByte
  rw [scanString.eq_def]
  simp only [if_neg notQuote, if_neg notBackslash, if_neg (show ¬ b < 0x20 by omega)]

/-- The scanner passes an escape it knows on to the literal. -/
theorem scanString_escape {e : Nat} (known : escapable e = true) (rest : List Nat) :
    scanString (0x5C :: e :: rest) = (scanString rest).map fun p => (0x5C :: e :: p.1, p.2) := by
  rw [scanString.eq_def]
  simp only [known]
  rfl

/-- The scanner passes an escape `\uXXXX` on to the literal. -/
theorem scanString_unicode {h1 h2 h3 h4 : Nat}
    (digits : [h1, h2, h3, h4].all (fun h => (hexValue h).isSome) = true) (rest : List Nat) :
    scanString (0x5C :: 0x75 :: h1 :: h2 :: h3 :: h4 :: rest) =
      (scanString rest).map fun p => (0x5C :: 0x75 :: h1 :: h2 :: h3 :: h4 :: p.1, p.2) := by
  rw [scanString.eq_def]
  simp only [digits]
  rfl

/-- The scanner passes plain bytes on to the literal. -/
theorem scanString_plain {bs : List Nat} (plainBytes : ∀ b ∈ bs, plain b) (rest : List Nat) :
    scanString (bs ++ rest) = (scanString rest).map fun p => (bs ++ p.1, p.2) := by
  induction bs with
  | nil => simp
  | cons b bs ih =>
    rw [List.cons_append, scanString_cons_plain (plainBytes b (List.mem_cons_self _ _)),
      ih fun x mem => plainBytes x (List.mem_cons_of_mem _ mem), Option.map_map]
    rfl

/-- The scanner passes the token of a scalar value on to the literal. -/
theorem scanString_token {r : Nat} (valid : validRune r) (rest : List Nat) :
    scanString (token r ++ rest) = (scanString rest).map fun p => (token r ++ p.1, p.2) := by
  unfold token
  by_cases ascii : r < runeSelf
  · rw [if_pos ascii]
    by_cases safe : htmlSafe r
    · rw [if_pos safe]
      simp only [htmlSafe, decide_eq_true_eq] at safe
      exact scanString_plain (by simp [plain]; omega) rest
    rw [if_neg safe, escapeByte]
    split_ifs with copied newline carriage tab
    · simp only [List.cons_append, List.nil_append]
      exact scanString_escape (by rcases copied with rfl | rfl <;> rfl) rest
    all_goals simp only [List.cons_append, List.nil_append]
    · exact scanString_escape (by decide) rest
    · exact scanString_escape (by decide) rest
    · exact scanString_escape (by decide) rest
    · unfold runeSelf at ascii
      exact scanString_unicode (by
        simp only [List.all_cons, List.all_nil, hexValue_hexDigit (show r / 16 < 16 by omega),
          hexValue_hexDigit (show r % 16 < 16 by omega), Option.isSome_some, Bool.and_true]
        rfl) rest
  rw [if_neg ascii]
  split_ifs with separator
  · simp only [List.cons_append, List.nil_append]
    exact scanString_unicode (by
      simp only [List.all_cons, List.all_nil, hexValue_hexDigit (show r % 16 < 16 by omega),
        Option.isSome_some, Bool.and_true]
      rfl) rest
  · obtain ⟨b, tail, spelled, -, high⟩ := encodeRune_high valid (by omega)
    rw [spelled]
    exact scanString_plain (fun x mem => by
      have := high x mem; simp only [runeSelf] at this; exact ⟨by omega, by omega, by omega⟩) rest

/-- The second loop of `unquoteBytes` copies the UTF-8 of a scalar value above ASCII. -/
theorem unquoteLoop_encodeRune_high {r : Nat} (valid : validRune r) (high : runeSelf ≤ r)
    (rest : List Nat) :
    unquoteLoop (encodeRune r ++ rest) = (unquoteLoop rest).map (encodeRune r ++ ·) := by
  obtain ⟨b, tail, spelled, long, above⟩ := encodeRune_high valid high
  have decoded := decodeRune_encodeRune valid rest
  have lead := above b (List.mem_cons_self _ _)
  simp only [runeSelf] at lead
  rw [spelled, List.cons_append] at decoded ⊢
  rw [unquoteLoop.eq_def]
  simp only [if_neg (show b ≠ 0x5C by omega), if_neg (show ¬ (b = 0x22 ∨ b < 0x20) by omega),
    if_neg (show ¬ b < runeSelf by simp only [runeSelf]; omega), decoded]
  rw [List.length_cons, Nat.add_sub_cancel, List.drop_left, spelled]

/-- The second loop of `unquoteBytes` reads the token of a scalar value back as its UTF-8
bytes. -/
theorem unquoteLoop_token {r : Nat} (valid : validRune r) (rest : List Nat) :
    unquoteLoop (token r ++ rest) = (unquoteLoop rest).map (encodeRune r ++ ·) := by
  unfold token
  by_cases ascii : r < runeSelf
  · rw [if_pos ascii, encodeRune_ascii ascii]
    have small : r < 0x80 := ascii
    by_cases safe : htmlSafe r
    · rw [if_pos safe]
      simp only [htmlSafe, decide_eq_true_eq] at safe
      rw [List.singleton_append, unquoteLoop.eq_def]
      simp only [if_neg safe.2.2.2.1, if_neg (show ¬ (r = 0x22 ∨ r < 0x20) by omega), if_pos ascii]
      rfl
    rw [if_neg safe, escapeByte]
    split_ifs with copied newline carriage tab
    · rw [List.cons_append, List.singleton_append, unquoteLoop.eq_def]
      simp only [if_pos copied.symm, if_pos (show r = 0x22 ∨ r = 0x5C ∨ r = 0x2F ∨ r = 0x27 by
        omega)]
      rfl
    all_goals rw [List.cons_append, unquoteLoop.eq_def]
    · subst newline; rfl
    · subst carriage; rfl
    · subst tab; rfl
    · have zero : hexValue 0x30 = some 0 := rfl
      have notSurrogate : isSurrogate r = false := by simp [isSurrogate]; omega
      simp [getu4, zero, hexValue_hexDigit (show r / 16 < 16 by omega),
        hexValue_hexDigit (show r % 16 < 16 by omega), Nat.div_add_mod', notSurrogate,
        encodeRune_ascii ascii]
  rw [if_neg ascii]
  split_ifs with separator
  · have zero : hexValue 0x30 = some 0 := rfl
    have two : hexValue 0x32 = some 2 := rfl
    have spelled : 8224 + r % 16 = r := by omega
    have notSurrogate : isSurrogate r = false := by simp [isSurrogate]; omega
    rw [List.cons_append, unquoteLoop.eq_def]
    simp [getu4, zero, two, hexValue_hexDigit (show r % 16 < 16 by omega), spelled,
      notSurrogate]
  · exact unquoteLoop_encodeRune_high valid (by omega) rest

/-- The first loop of `unquoteBytes` is a shortcut: the prefix it skips is what the second
loop writes for it. -/
theorem unquoteLoop_ordinary (s : List Nat) :
    unquoteLoop s =
      (unquoteLoop (s.drop (ordinaryLength s))).map (s.take (ordinaryLength s) ++ ·) := by
  induction s using ordinaryLength.induct with
  | case1 => simp [ordinaryLength]
  | case2 b rest unusual =>
    rw [ordinaryLength.eq_2, if_pos unusual]
    simp
  | case3 b rest usual ascii ih =>
    have short : ¬ b = 0x5C ∧ ¬ (b = 0x22 ∨ b < 0x20) := by omega
    rw [ordinaryLength.eq_2, if_neg usual, if_pos ascii, unquoteLoop.eq_def]
    simp only [if_neg short.1, if_neg short.2, if_pos ascii]
    rw [ih, Option.map_map]
    rfl
  | case4 b rest usual high decoded invalid =>
    have invalid : decodeRune (b :: rest) = (runeError, 1) := invalid
    rw [ordinaryLength.eq_2, if_neg usual, if_neg high]
    simp [invalid]
  | case5 b rest usual high decoded valid ih =>
    have short : ¬ b = 0x5C ∧ ¬ (b = 0x22 ∨ b < 0x20) := by omega
    have size := one_le_decodeRune_size b rest
    have valid : decodeRune (b :: rest) ≠ (runeError, 1) := valid
    have written := encodeRune_decodeRune (Nat.le_of_not_lt high) valid
    rw [ordinaryLength.eq_2, if_neg usual, if_neg high, unquoteLoop.eq_def]
    simp only [if_neg valid, if_neg short.1, if_neg short.2, if_neg high]
    rw [ih, Option.map_map, written]
    obtain ⟨n, succ⟩ : ∃ n, (decodeRune (b :: rest)).2 = n + 1 :=
      ⟨_, (Nat.succ_pred_eq_of_pos size).symm⟩
    have same : decoded.2 = n + 1 := succ
    simp only [same, succ, Nat.add_sub_cancel, Nat.add_comm _ (n + 1), List.take_add,
      ← List.drop_drop, List.take_succ_cons, List.drop_succ_cons, Function.comp_def,
      List.append_assoc, List.cons_append]

/-- `unquoteBytes` writes what its second loop writes. -/
theorem unquote_eq_unquoteLoop (s : List Nat) : unquote s = unquoteLoop s := by
  rw [unquote, unquoteLoop_ordinary s]
  split
  · next whole => simp [whole, unquoteLoop]
  · rfl

end DeveloperGateway.Json
