import Mathlib.Data.List.Basic

/-! # Go strings in JSON

`writeNewConfig` stores the config with `json.MarshalIndent` and `loadConfig` reads it back with
`json.Unmarshal`, which first scans the whole input and then skips each value that no field of
the struct takes, of whatever kind. A Go string is any sequence of bytes. The encoder
(`encodeState.string`, with HTML escaping on) walks it rune by rune as `utf8.DecodeRune` reads it,
escapes the bytes JSON and HTML need escaped, and writes every byte that starts no well-formed
character as `�`. The decoder (`unquote`) undoes every escape and copies well-formed characters. A
string therefore comes back as its UTF-8 coercion, which is the string itself exactly when it is
valid UTF-8.
-/

namespace MirageNavi.Store

set_option autoImplicit false

/-! ## UTF-8, as package unicode/utf8 reads it -/

def isTail (b : UInt8) : Bool := 0x80 ≤ b && b ≤ 0xBF

/-- The width of the character a byte of 0x80 or above starts (Go's `first` table), 0 when it
starts none. -/
def leadWidth (b : UInt8) : Nat :=
  if 0xC2 ≤ b ∧ b ≤ 0xDF then 2
  else if 0xE0 ≤ b ∧ b ≤ 0xEF then 3
  else if 0xF0 ≤ b ∧ b ≤ 0xF4 then 4
  else 0

/-- The bounds of the byte after a lead byte (Go's `acceptRanges`). -/
def secondOk (lead b : UInt8) : Bool :=
  if lead = 0xE0 then 0xA0 ≤ b && b ≤ 0xBF
  else if lead = 0xED then 0x80 ≤ b && b ≤ 0x9F
  else if lead = 0xF0 then 0x90 ≤ b && b ≤ 0xBF
  else if lead = 0xF4 then 0x80 ≤ b && b ≤ 0x8F
  else isTail b

/-- `utf8.DecodeRune` at a byte of 0x80 or above: the bytes of the well-formed character found
there and the rest of the string, or `none` where it returns `RuneError` of width 1. -/
def decodeWide : List UInt8 → Option (List UInt8 × List UInt8)
  | b0 :: b1 :: rest =>
    if leadWidth b0 = 0 ∨ secondOk b0 b1 = false then none
    else if leadWidth b0 = 2 then some ([b0, b1], rest)
    else match rest with
      | b2 :: rest =>
        if isTail b2 = false then none
        else if leadWidth b0 = 3 then some ([b0, b1, b2], rest)
        else match rest with
          | b3 :: rest => if isTail b3 then some ([b0, b1, b2, b3], rest) else none
          | [] => none
      | [] => none
  | _ => none

theorem decodeWide_append {s c r : List UInt8} (h : decodeWide s = some (c, r))
    (t : List UInt8) : decodeWide (c ++ t) = some (c, t) := by
  rcases s with _ | ⟨b0, _ | ⟨b1, _ | ⟨b2, _ | ⟨b3, rest⟩⟩⟩⟩ <;> simp only [decodeWide] at h <;>
    (try split_ifs at h) <;> cases h <;> simp_all [decodeWide]

theorem decodeWide_eq {s c r : List UInt8} (h : decodeWide s = some (c, r)) :
    s = c ++ r ∧ 2 ≤ c.length := by
  rcases s with _ | ⟨b0, _ | ⟨b1, _ | ⟨b2, _ | ⟨b3, rest⟩⟩⟩⟩ <;> simp only [decodeWide] at h <;>
    (try split_ifs at h) <;> cases h <;> simp

/-- What `for range` meets at each position of a Go string: an ASCII byte, a well-formed
character, or a byte that starts none (`RuneError`, width 1). -/
inductive Rune
  | ascii (b : UInt8)
  | wide (c : List UInt8)
  | error (b : UInt8)
  deriving DecidableEq, Repr

def Rune.bytes : Rune → List UInt8
  | .ascii b => [b]
  | .wide c => c
  | .error b => [b]

def runesAux : Nat → List UInt8 → List Rune
  | 0, _ => []
  | _ + 1, [] => []
  | n + 1, b :: rest =>
    if b < 0x80 then .ascii b :: runesAux n rest
    else match decodeWide (b :: rest) with
      | some (c, r) => .wide c :: runesAux n r
      | none => .error b :: runesAux n rest

def runes (s : List UInt8) : List Rune := runesAux s.length s

def Rune.Read : Rune → Prop
  | .ascii b => b < 0x80
  | .wide c => 0x80 ≤ c.headD 0 ∧ ∀ t, decodeWide (c ++ t) = some (c, t)
  | .error _ => True

theorem runesAux_spec (n : Nat) (s : List UInt8) (hn : s.length ≤ n) :
    (runesAux n s).flatMap Rune.bytes = s ∧ ∀ x ∈ runesAux n s, x.Read := by
  induction n generalizing s with
  | zero => simp_all [runesAux]
  | succ n ih =>
    match s with
    | [] => simp [runesAux]
    | b :: rest =>
      simp only [runesAux]
      split
      · obtain ⟨hBytes, hRead⟩ := ih rest (by simp at hn; omega)
        exact ⟨by simp [Rune.bytes, hBytes], by simpa [Rune.Read, *] using hRead⟩
      split
      · rename_i c r hDec
        obtain ⟨hEq, hLen⟩ := decodeWide_eq hDec
        have hc : c.headD 0 = b := by
          cases c with
          | nil => simp at hLen
          | cons _ _ => simp_all
        obtain ⟨hBytes, hRead⟩ := ih r (by
          have := congrArg List.length hEq
          simp at this hn; omega)
        refine ⟨by simp [Rune.bytes, hBytes, hEq], ?_⟩
        simp only [List.mem_cons, forall_eq_or_imp]
        exact ⟨⟨by rw [hc]; simp_all [not_lt], fun t => decodeWide_append hDec t⟩, hRead⟩
      · obtain ⟨hBytes, hRead⟩ := ih rest (by simp at hn; omega)
        exact ⟨by simp [Rune.bytes, hBytes], by simpa [Rune.Read] using hRead⟩

theorem runes_bytes (s : List UInt8) : (runes s).flatMap Rune.bytes = s :=
  (runesAux_spec _ s le_rfl).1

theorem runes_read (s : List UInt8) : ∀ x ∈ runes s, x.Read :=
  (runesAux_spec _ s le_rfl).2

/-- The bytes of U+FFFD, what both the encoder and the decoder put for an invalid byte. -/
def runeErrorBytes : List UInt8 := [0xEF, 0xBF, 0xBD]

def Rune.coerced : Rune → List UInt8
  | .error _ => runeErrorBytes
  | r => r.bytes

/-- A string with every byte that starts no well-formed character replaced by U+FFFD. -/
def coerceUTF8 (s : List UInt8) : List UInt8 := (runes s).flatMap Rune.coerced

def validUTF8 (s : List UInt8) : Bool := (runes s).all fun r => !r matches .error _

theorem coerceUTF8_eq_self {s : List UInt8} (h : validUTF8 s) : coerceUTF8 s = s := by
  conv_rhs => rw [← runes_bytes s]
  unfold coerceUTF8
  refine List.flatMap_congr fun r hr => ?_
  have := List.all_eq_true.mp h r hr
  cases r <;> simp_all [Rune.coerced]

/-! ## `encodeState.string` and `unquote` -/

def hexDigit (n : Nat) : UInt8 := if n < 10 then (0x30 + n).toUInt8 else (0x57 + n).toUInt8

def hexValue (c : UInt8) : Option Nat :=
  if 0x30 ≤ c ∧ c ≤ 0x39 then some (c.toNat - 0x30)
  else if 0x61 ≤ c ∧ c ≤ 0x66 then some (c.toNat - 0x57)
  else if 0x41 ≤ c ∧ c ≤ 0x46 then some (c.toNat - 0x37)
  else none

theorem hexValue_hexDigit (n : Nat) (h : n < 16) : hexValue (hexDigit n) = some n := by
  revert n
  decide

/-- Go's `htmlSafeSet`: the ASCII bytes written as they are when HTML escaping is on. -/
def htmlSafe (b : UInt8) : Bool :=
  0x20 ≤ b && b != 0x22 && b != 0x5C && b != 0x3C && b != 0x3E && b != 0x26

/-- An ASCII byte as `encodeState.string` writes it (Go 1.19): `\"`, `\\`, `\n`, `\r`, `\t`,
and `\u00XX` for the other control bytes and for `<`, `>` and `&`. -/
def escapeByte (b : UInt8) : List UInt8 :=
  if htmlSafe b then [b]
  else if b = 0x5C ∨ b = 0x22 then [0x5C, b]
  else if b = 0x0A then [0x5C, 0x6E]
  else if b = 0x0D then [0x5C, 0x72]
  else if b = 0x09 then [0x5C, 0x74]
  else [0x5C, 0x75, 0x30, 0x30, hexDigit (b.toNat / 16), hexDigit (b.toNat % 16)]

/-- A rune as `encodeState.string` writes it: U+2028 and U+2029 escaped, an invalid byte as
`\ufffd`, every other character copied. -/
def Rune.escaped : Rune → List UInt8
  | .ascii b => escapeByte b
  | .wide c =>
    if c = [0xE2, 0x80, 0xA8] then [0x5C, 0x75, 0x32, 0x30, 0x32, 0x38]
    else if c = [0xE2, 0x80, 0xA9] then [0x5C, 0x75, 0x32, 0x30, 0x32, 0x39]
    else c
  | .error _ => [0x5C, 0x75, 0x66, 0x66, 0x66, 0x64]

/-- `encodeState.string`: the JSON literal of a Go string. -/
def quote (s : List UInt8) : List UInt8 := 0x22 :: (runes s).flatMap Rune.escaped ++ [0x22]

/-- `getu4` after its `\u`: four hex digits as a UTF-16 code unit, and the rest. -/
def getu4 : List UInt8 → Option (Nat × List UInt8)
  | a :: b :: c :: d :: rest => do
    let a ← hexValue a
    let b ← hexValue b
    let c ← hexValue c
    let d ← hexValue d
    pure (((a * 16 + b) * 16 + c) * 16 + d, rest)
  | _ => none

/-- `utf8.EncodeRune`. -/
def encodeRune (r : Nat) : List UInt8 :=
  if r < 0x80 then [r.toUInt8]
  else if r < 0x800 then [(0xC0 + r / 0x40).toUInt8, (0x80 + r % 0x40).toUInt8]
  else if 0xD800 ≤ r ∧ r < 0xE000 ∨ 0x10FFFF < r then runeErrorBytes
  else if r < 0x10000 then
    [(0xE0 + r / 0x1000).toUInt8, (0x80 + r / 0x40 % 0x40).toUInt8, (0x80 + r % 0x40).toUInt8]
  else
    [(0xF0 + r / 0x40000).toUInt8, (0x80 + r / 0x1000 % 0x40).toUInt8,
      (0x80 + r / 0x40 % 0x40).toUInt8, (0x80 + r % 0x40).toUInt8]

/-- `utf16.DecodeRune`: the code point of a surrogate pair, U+FFFD for any other pair. -/
def decodeSurrogates (r1 r2 : Nat) : Nat :=
  if 0xD800 ≤ r1 ∧ r1 < 0xDC00 ∧ 0xDC00 ≤ r2 ∧ r2 < 0xE000 then
    (r1 - 0xD800) * 0x400 + (r2 - 0xDC00) + 0x10000
  else 0xFFFD

/-- A `\u` escape after its `u`; a lone surrogate becomes U+FFFD and leaves what follows it. -/
def unescapeU (s : List UInt8) : Option (List UInt8 × List UInt8) := do
  let (rr, rest) ← getu4 s
  if 0xD800 ≤ rr ∧ rr < 0xE000 then
    match rest with
    | 0x5C :: 0x75 :: more =>
      match getu4 more with
      | some (rr1, rest') =>
        if decodeSurrogates rr rr1 = 0xFFFD then pure (encodeRune 0xFFFD, rest)
        else pure (encodeRune (decodeSurrogates rr rr1), rest')
      | none => pure (encodeRune 0xFFFD, rest)
    | _ => pure (encodeRune 0xFFFD, rest)
  else pure (encodeRune rr, rest)

/-- An escape after its backslash, those the scanner admits, as `unquote` decodes them. -/
def unescape : List UInt8 → Option (List UInt8 × List UInt8)
  | c :: rest =>
    if c = 0x22 ∨ c = 0x5C ∨ c = 0x2F then some ([c], rest)
    else if c = 0x62 then some ([0x08], rest)
    else if c = 0x66 then some ([0x0C], rest)
    else if c = 0x6E then some ([0x0A], rest)
    else if c = 0x72 then some ([0x0D], rest)
    else if c = 0x74 then some ([0x09], rest)
    else if c = 0x75 then unescapeU rest
    else none
  | [] => none

/-- One unit of a string literal's body as `unquote` decodes it: the bytes written and the
rest; `none` at a quote or control byte, which the scanner refuses. An invalid byte becomes
U+FFFD. -/
def unquoteStep : List UInt8 → Option (List UInt8 × List UInt8)
  | [] => none
  | b :: rest =>
    if b = 0x5C then unescape rest
    else if b = 0x22 ∨ b < 0x20 then none
    else if b < 0x80 then some ([b], rest)
    else some ((decodeWide (b :: rest)).getD (runeErrorBytes, rest))

/-- A string literal's body up to its closing quote: the decoded bytes and what follows the
quote. -/
def readString : Nat → List UInt8 → Option (List UInt8 × List UInt8)
  | 0, _ => none
  | _ + 1, [] => none
  | n + 1, b :: rest =>
    if b = 0x22 then some ([], rest)
    else match unquoteStep (b :: rest) with
      | some (out, r) => (readString n r).map fun (v, r') => (out ++ v, r')
      | none => none

theorem toUInt8_toNat (b : UInt8) : b.toNat.toUInt8 = b :=
  UInt8.toNat.inj (by simp [UInt8.toNat, Nat.toUInt8, UInt8.ofNat])

theorem unquoteStep_escapeByte (b : UInt8) (hb : b < 0x80) (t : List UInt8) :
    unquoteStep (escapeByte b ++ t) = some ([b], t) := by
  have hNat : b.toNat < 0x80 := hb
  unfold escapeByte
  split_ifs with hSafe hQuote hLf hCr hTab
  · simp only [htmlSafe, Bool.and_eq_true, decide_eq_true_eq, bne_iff_ne, ne_eq] at hSafe
    simp [unquoteStep, hSafe, hb, UInt8.not_lt.mpr hSafe.1.1.1.1.1]
  · rcases hQuote with rfl | rfl <;> rfl
  · subst hLf; rfl
  · subst hCr; rfl
  · subst hTab; rfl
  · have hHigh := hexValue_hexDigit (b.toNat / 16) (by omega)
    have hLow := hexValue_hexDigit (b.toNat % 16) (Nat.mod_lt _ (by omega))
    have hZero : hexValue 0x30 = some 0 := rfl
    have hSurr : ¬ 0xD800 ≤ b.toNat := by omega
    simp [unquoteStep, unescape, unescapeU, getu4, hZero, hHigh, hLow, Nat.div_add_mod', encodeRune,
      hNat, hSurr, toUInt8_toNat]

theorem escaped_cons (r : Rune) (hr : r.Read) : ∃ b bs, r.escaped = b :: bs ∧ b ≠ 0x22 := by
  cases r with
  | ascii b =>
    simp only [Rune.escaped, escapeByte]
    split_ifs with hSafe
    · simp only [htmlSafe, Bool.and_eq_true, decide_eq_true_eq, bne_iff_ne, ne_eq] at hSafe
      exact ⟨b, [], rfl, hSafe.1.1.1.1.2⟩
    all_goals exact ⟨_, _, rfl, by decide⟩
  | wide c =>
    simp only [Rune.escaped]
    split_ifs
    · exact ⟨_, _, rfl, by decide⟩
    · exact ⟨_, _, rfl, by decide⟩
    · cases c with
      | nil => simp [Rune.Read] at hr
      | cons b bs =>
        refine ⟨b, bs, rfl, fun h => ?_⟩
        simp [Rune.Read, h] at hr
  | error b => exact ⟨_, _, rfl, by decide⟩

theorem unquoteStep_escaped (r : Rune) (hr : r.Read) (t : List UInt8) :
    unquoteStep (r.escaped ++ t) = some (r.coerced, t) := by
  cases r with
  | ascii b => exact unquoteStep_escapeByte b hr t
  | wide c =>
    simp only [Rune.escaped, Rune.coerced, Rune.bytes]
    split_ifs with hLine hPara
    · subst hLine; rfl
    · subst hPara; rfl
    · obtain ⟨hHigh, hDec⟩ := hr
      cases c with
      | nil => simp at hHigh
      | cons b bs =>
        have hb : ¬ b < 0x80 := by simpa using hHigh
        have hb' : (0x80 : UInt8) ≤ b := by simpa using hHigh
        have h5C : b ≠ 0x5C := by rintro rfl; exact hb (by decide)
        have h22 : ¬ (b = 0x22 ∨ b < 0x20) := by
          rintro (rfl | hLt)
          · exact hb (by decide)
          · exact hb (UInt8.lt_trans hLt (by decide))
        simp only [List.cons_append, unquoteStep, if_neg h5C, if_neg h22, if_neg hb]
        rw [← List.cons_append, hDec t]
        rfl
  | error b => rfl

theorem readString_escaped (rs : List Rune) (hrs : ∀ r ∈ rs, r.Read) (t : List UInt8) (n : Nat)
    (hn : (rs.flatMap Rune.escaped).length < n) :
    readString n (rs.flatMap Rune.escaped ++ 0x22 :: t) = some (rs.flatMap Rune.coerced, t) := by
  induction rs generalizing n with
  | nil =>
    obtain ⟨m, rfl⟩ : ∃ m, n = m + 1 := ⟨n - 1, by rw [List.flatMap_nil] at hn; omega⟩
    rfl
  | cons r rs ih =>
    obtain ⟨b, bs, hEsc, hb⟩ := escaped_cons r (hrs r (List.mem_cons_self _ _))
    have hLen : (r.escaped ++ rs.flatMap Rune.escaped).length < n := by
      rwa [List.flatMap_cons] at hn
    obtain ⟨m, rfl⟩ : ∃ m, n = m + 1 := ⟨n - 1, by omega⟩
    have hStep := unquoteStep_escaped r (hrs r (List.mem_cons_self _ _))
      (rs.flatMap Rune.escaped ++ 0x22 :: t)
    have hRest := ih (fun x hx => hrs x (List.mem_cons_of_mem _ hx)) m
      (by rw [hEsc, List.length_append, List.length_cons] at hLen; omega)
    rw [hEsc] at hStep
    simp only [List.flatMap_cons, List.append_assoc, hEsc, List.cons_append, readString, if_neg hb]
    rw [← List.cons_append, hStep]
    simp [hRest]

theorem readString_quote (s t : List UInt8) :
    readString ((quote s).length + t.length) ((quote s).drop 1 ++ t) = some (coerceUTF8 s, t) := by
  have hBody := readString_escaped (runes s) (runes_read s) t ((quote s).length + t.length)
    (by simp [quote]; omega)
  simpa [quote] using hBody

/-! ## The scanner -/

def isSpace (b : UInt8) : Bool := b = 0x20 || b = 0x09 || b = 0x0A || b = 0x0D

def skipSpace : List UInt8 → List UInt8
  | b :: rest => if isSpace b then skipSpace rest else b :: rest
  | [] => []

@[simp] theorem skipSpace_newline (s : List UInt8) : skipSpace (0x0A :: s) = skipSpace s := rfl
@[simp] theorem skipSpace_tab (s : List UInt8) : skipSpace (0x09 :: s) = skipSpace s := rfl
@[simp] theorem skipSpace_space (s : List UInt8) : skipSpace (0x20 :: s) = skipSpace s := rfl
@[simp] theorem skipSpace_quote (s : List UInt8) : skipSpace (0x22 :: s) = 0x22 :: s := rfl
@[simp] theorem skipSpace_colon (s : List UInt8) : skipSpace (0x3A :: s) = 0x3A :: s := rfl
@[simp] theorem skipSpace_comma (s : List UInt8) : skipSpace (0x2C :: s) = 0x2C :: s := rfl
@[simp] theorem skipSpace_open (s : List UInt8) : skipSpace (0x7B :: s) = 0x7B :: s := rfl
@[simp] theorem skipSpace_close (s : List UInt8) : skipSpace (0x7D :: s) = 0x7D :: s := rfl

/-- A string literal after its opening quote, with one unit of fuel for every byte left. -/
def readLiteral (s : List UInt8) : Option (List UInt8 × List UInt8) := readString (s.length + 1) s

theorem readLiteral_quote (s t : List UInt8) :
    readLiteral ((quote s).tail ++ t) = some (coerceUTF8 s, t) := by
  have hFuel : ((quote s).tail ++ t).length + 1 = (quote s).length + t.length := by
    simp [quote]
    omega
  rw [readLiteral, hFuel, ← List.drop_one]
  exact readString_quote s t

def isDigit (b : UInt8) : Bool := 0x30 ≤ b && b ≤ 0x39

def skipDigits : List UInt8 → List UInt8
  | b :: rest => if isDigit b then skipDigits rest else b :: rest
  | [] => []

/-- One digit or more. -/
def digits1 : List UInt8 → Option (List UInt8)
  | b :: rest => if isDigit b then some (skipDigits rest) else none
  | [] => none

/-- The integer part of a number, after its optional minus sign: `0`, or a digit 1 to 9 and more
digits. -/
def intPart : List UInt8 → Option (List UInt8)
  | 0x30 :: rest => some rest
  | s => digits1 s

/-- An optional fraction: `.` and one digit or more. -/
def fracPart : List UInt8 → Option (List UInt8)
  | 0x2E :: rest => digits1 rest
  | s => some s

/-- An optional exponent: `e` or `E`, an optional sign, and one digit or more. -/
def expPart : List UInt8 → Option (List UInt8)
  | e :: rest =>
    if e = 0x65 ∨ e = 0x45 then
      match rest with
      | 0x2B :: r => digits1 r
      | 0x2D :: r => digits1 r
      | r => digits1 r
    else some (e :: rest)
  | [] => some []

/-- A number, as the scanner's states `Neg`, `1`, `0`, `Dot`, `Dot0`, `E`, `ESign` and `E0` read it:
an optional minus, the integer part, the fraction and the exponent. -/
def skipNumber (s : List UInt8) : Option (List UInt8) :=
  let s := match s with
    | 0x2D :: r => r
    | r => r
  ((intPart s).bind fracPart).bind expPart

/-- The rest of `true`, `false` or `null` after its first byte, as the scanner's states `T`, `Tr`,
`Tru`, `F`, `Fa`, `Fal`, `Fals`, `N`, `Nu` and `Nul` read it. -/
def skipWord : List UInt8 → List UInt8 → Option (List UInt8)
  | [], s => some s
  | w :: word, b :: s => if b = w then skipWord word s else none
  | _ :: _, [] => none

/-- The scanner's `maxNestingDepth`: the arrays and objects a value may sit in, the outermost
included. -/
def maxNestingDepth : Nat := 10000

mutual

/-- A value that `d.value` skips because the struct has no field for it, once `checkValid` has
scanned it: what follows it, `none` where the scanner reports a syntax error. `depth` counts the
arrays and objects around it. With fuel `2 * s.length + 1` a value never runs out of it
(`skipValue_fuel`). -/
def skipValue : Nat → Nat → List UInt8 → Option (List UInt8)
  | 0, _, _ => none
  | n + 1, depth, s =>
    match skipSpace s with
    | [] => none
    | b :: rest =>
      if b = 0x22 then (readLiteral rest).map Prod.snd
      else if b = 0x74 then skipWord [0x72, 0x75, 0x65] rest
      else if b = 0x66 then skipWord [0x61, 0x6C, 0x73, 0x65] rest
      else if b = 0x6E then skipWord [0x75, 0x6C, 0x6C] rest
      else if b = 0x5B then
        if maxNestingDepth ≤ depth then none
        else match skipSpace rest with
          | 0x5D :: r => some r
          | _ => skipElems n (depth + 1) rest
      else if b = 0x7B then
        if maxNestingDepth ≤ depth then none
        else match skipSpace rest with
          | 0x7D :: r => some r
          | _ => skipMembers n (depth + 1) rest
      else skipNumber (b :: rest)

/-- The elements of an array after its `[`, up to its `]`. -/
def skipElems : Nat → Nat → List UInt8 → Option (List UInt8)
  | 0, _, _ => none
  | n + 1, depth, s => do
    let r ← skipValue n depth s
    match skipSpace r with
    | 0x2C :: r => skipElems n depth r
    | 0x5D :: r => some r
    | _ => none

/-- The members of an object after its `{`, up to its `}`. -/
def skipMembers : Nat → Nat → List UInt8 → Option (List UInt8)
  | 0, _, _ => none
  | n + 1, depth, s =>
    match skipSpace s with
    | 0x22 :: rest => do
      let (_, r) ← readLiteral rest
      match skipSpace r with
      | 0x3A :: r => do
        let r ← skipValue n depth r
        match skipSpace r with
        | 0x2C :: r => skipMembers n depth r
        | 0x7D :: r => some r
        | _ => none
      | _ => none
    | _ => none

end

/-! ## The fuel of the scanner

Every piece of the scanner leaves a suffix of its input, and a value, an array or an object a
strictly shorter one; so each call of `skipValue`, `skipElems` and `skipMembers` consumes a byte
before the call after it, every second call at least, and fuel twice the input's length never
runs out. -/

theorem skipSpace_length_le : ∀ s : List UInt8, (skipSpace s).length ≤ s.length
  | [] => le_rfl
  | b :: rest => by
    unfold skipSpace
    split
    · exact (skipSpace_length_le rest).trans (Nat.le_succ _)
    · exact le_rfl

theorem getu4_length_le {s r : List UInt8} {n : Nat} (h : getu4 s = some (n, r)) :
    r.length + 4 ≤ s.length := by
  unfold getu4 at h
  split at h
  · simp only [Option.bind_eq_bind, Option.bind_eq_some, Option.some.injEq, Prod.mk.injEq] at h
    obtain ⟨_, _, _, _, _, _, _, _, -, rfl⟩ := h
    simp
  · cases h

theorem unescapeU_length_le {s out r : List UInt8} (h : unescapeU s = some (out, r)) :
    r.length ≤ s.length := by
  unfold unescapeU at h
  obtain ⟨⟨rr, rest⟩, h4, h⟩ := Option.bind_eq_some.1 h
  have hRest := getu4_length_le h4
  -- every answer leaves `rest`, but a surrogate pair, which leaves what follows its second half
  have hDone : ∀ {o}, (pure (o, rest) : Option _) = some (out, r) → r.length ≤ s.length := by
    rintro o ⟨⟩
    omega
  dsimp only at h
  split_ifs at h
  · split at h
    · split at h
      · rename_i h4'
        split_ifs at h
        · exact hDone h
        · cases h
          have := getu4_length_le h4'
          simp only [List.length_cons] at hRest
          omega
      · exact hDone h
    · exact hDone h
  · exact hDone h

theorem unescape_length_le {s out r : List UInt8} (h : unescape s = some (out, r)) :
    r.length ≤ s.length := by
  cases s with
  | nil => cases h
  | cons c rest =>
    rw [unescape] at h
    simp only [ite_eq_iff, Option.some.injEq, Prod.mk.injEq, reduceCtorEq, and_false, or_false] at h
    -- a one-byte escape leaves what follows it, a \u escape what `unescapeU` leaves
    have hRest : rest = r ∨ unescapeU rest = some (out, r) := by
      rcases h with ⟨-, -, h⟩ | ⟨-, ⟨-, -, h⟩ | ⟨-, ⟨-, -, h⟩ | ⟨-, ⟨-, -, h⟩ | ⟨-, ⟨-, -, h⟩ |
        ⟨-, ⟨-, -, h⟩ | ⟨-, -, h⟩⟩⟩⟩⟩⟩
      all_goals first | exact .inl h | exact .inr h
    rcases hRest with rfl | hU
    · simp
    · exact (unescapeU_length_le hU).trans (Nat.le_succ _)

theorem unquoteStep_length_le {s out r : List UInt8} (h : unquoteStep s = some (out, r)) :
    r.length ≤ s.length := by
  unfold unquoteStep at h
  split at h
  · cases h
  rename_i b rest
  split_ifs at h
  · exact (unescape_length_le h).trans (Nat.le_succ _)
  · simp only [Option.some.injEq, Prod.mk.injEq] at h; obtain ⟨-, rfl⟩ := h; simp
  · cases hDec : decodeWide (b :: rest) with
    | none => simp only [hDec, Option.getD_none, Option.some.injEq, Prod.mk.injEq] at h; obtain ⟨-, rfl⟩ := h; simp
    | some p =>
      obtain ⟨c, r'⟩ := p
      simp only [hDec, Option.getD_some, Option.some.injEq, Prod.mk.injEq] at h
      obtain ⟨rfl, rfl⟩ := h
      have := congrArg List.length (decodeWide_eq hDec).1
      rw [List.length_append] at this
      omega

theorem readString_length_le : ∀ (n : Nat) {s v r : List UInt8}, readString n s = some (v, r) →
    r.length ≤ s.length
  | 0, _, _, _, h => by cases h
  | n + 1, [], _, _, h => by cases h
  | n + 1, b :: rest, v, r, h => by
    unfold readString at h
    split_ifs at h
    · simp only [Option.some.injEq, Prod.mk.injEq] at h; obtain ⟨-, rfl⟩ := h; simp
    split at h
    · rename_i out r' hStep
      obtain ⟨⟨v', r''⟩, hRest, hEq⟩ := Option.map_eq_some'.1 h
      simp only [Prod.mk.injEq] at hEq
      obtain ⟨-, rfl⟩ := hEq
      exact (readString_length_le n hRest).trans (unquoteStep_length_le hStep)
    · cases h

theorem readLiteral_length_le {s v r : List UInt8} (h : readLiteral s = some (v, r)) :
    r.length ≤ s.length :=
  readString_length_le _ h

theorem skipDigits_length_le : ∀ s : List UInt8, (skipDigits s).length ≤ s.length
  | [] => le_rfl
  | b :: rest => by
    unfold skipDigits
    split
    · exact (skipDigits_length_le rest).trans (Nat.le_succ _)
    · exact le_rfl

theorem digits1_length_lt {s r : List UInt8} (h : digits1 s = some r) : r.length < s.length := by
  unfold digits1 at h
  split at h
  · split_ifs at h
    cases h
    exact Nat.lt_succ_of_le (skipDigits_length_le _)
  · cases h

theorem intPart_length_lt {s r : List UInt8} (h : intPart s = some r) : r.length < s.length := by
  unfold intPart at h
  split at h
  · cases h; simp
  · exact digits1_length_lt h

theorem fracPart_length_le {s r : List UInt8} (h : fracPart s = some r) : r.length ≤ s.length := by
  unfold fracPart at h
  split at h
  · have := digits1_length_lt h; simp; omega
  · cases h; exact le_rfl

theorem expPart_length_le {s r : List UInt8} (h : expPart s = some r) : r.length ≤ s.length := by
  unfold expPart at h
  split at h
  · split_ifs at h
    · -- the sign, when there is one, is one byte more that the digits leave behind
      split at h
      all_goals
        have hDigits := digits1_length_lt h
        simp only [List.length_cons]
        omega
    · cases h; exact le_rfl
  · cases h; exact le_rfl

theorem skipNumber_length_lt {s r : List UInt8} (h : skipNumber s = some r) : r.length < s.length := by
  have hBody : ∀ {t}, ((intPart t).bind fracPart).bind expPart = some r → r.length < t.length :=
    fun h => by
      obtain ⟨s₂, h₂, h₃⟩ := Option.bind_eq_some.1 h
      obtain ⟨s₁, h₁, h₂⟩ := Option.bind_eq_some.1 h₂
      have := intPart_length_lt h₁
      have := fracPart_length_le h₂
      have := expPart_length_le h₃
      omega
  unfold skipNumber at h
  split at h
  · have := hBody h; simp; omega
  · exact hBody h

theorem skipWord_length_le : ∀ {word s r : List UInt8}, skipWord word s = some r →
    r.length ≤ s.length
  | [], _, _, h => by cases h; exact le_rfl
  | _ :: _, [], _, h => by cases h
  | w :: word, b :: s, r, h => by
    unfold skipWord at h
    split_ifs at h
    exact (skipWord_length_le h).trans (Nat.le_succ _)

theorem skipSpace_cons_length {s t : List UInt8} {b : UInt8} (h : skipSpace s = b :: t) :
    t.length < s.length := by
  have := skipSpace_length_le s
  rw [h, List.length_cons] at this
  omega

theorem skip_length_lt : ∀ n : Nat,
    (∀ {d : Nat} {s r : List UInt8}, skipValue n d s = some r → r.length < s.length) ∧
    (∀ {d : Nat} {s r : List UInt8}, skipElems n d s = some r → r.length < s.length) ∧
    (∀ {d : Nat} {s r : List UInt8}, skipMembers n d s = some r → r.length < s.length)
  | 0 => ⟨fun h => by simp [skipValue] at h, fun h => by simp [skipElems] at h,
      fun h => by simp [skipMembers] at h⟩
  | n + 1 => by
    obtain ⟨hV, hE, hM⟩ := skip_length_lt n
    refine ⟨fun {d s r} h => ?_, fun {d s r} h => ?_, fun {d s r} h => ?_⟩
    · rw [skipValue] at h
      split at h
      · cases h
      next b rest hSp =>
        have h0 := skipSpace_cons_length hSp
        simp only [ite_eq_iff, reduceCtorEq, false_and, and_false, or_false, false_or] at h
        -- one case for each branch of the dispatch on the first byte
        rcases h with ⟨-, h⟩ | ⟨-, ⟨-, h⟩ | ⟨-, ⟨-, h⟩ | ⟨-, ⟨-, h⟩ | ⟨-, ⟨-, -, h⟩ | ⟨-, ⟨-, -, h⟩ |
          ⟨-, h⟩⟩⟩⟩⟩⟩
        · obtain ⟨⟨v, r'⟩, hLit, rfl⟩ := Option.map_eq_some'.1 h
          exact (readLiteral_length_le hLit).trans_lt h0
        · exact (skipWord_length_le h).trans_lt h0
        · exact (skipWord_length_le h).trans_lt h0
        · exact (skipWord_length_le h).trans_lt h0
        · split at h
          next r' hSp' => cases h; exact (skipSpace_cons_length hSp').trans h0
          next => exact (hE h).trans h0
        · split at h
          next r' hSp' => cases h; exact (skipSpace_cons_length hSp').trans h0
          next => exact (hM h).trans h0
        · exact (skipNumber_length_lt h).trans_le (hSp ▸ skipSpace_length_le s)
    · rw [skipElems] at h
      obtain ⟨r₁, h₁, h⟩ := Option.bind_eq_some.1 h
      split at h
      next r₂ hSp => exact ((hE h).trans (skipSpace_cons_length hSp)).trans (hV h₁)
      next r₂ hSp => cases h; exact (skipSpace_cons_length hSp).trans (hV h₁)
      next => cases h
    · rw [skipMembers] at h
      split at h
      next rest hSp =>
        obtain ⟨⟨key, r₁⟩, hLit, h⟩ := Option.bind_eq_some.1 h
        have hKey := (readLiteral_length_le hLit).trans_lt (skipSpace_cons_length hSp)
        dsimp only at h
        split at h
        next r₂ hSp₂ =>
          obtain ⟨r₃, h₃, h⟩ := Option.bind_eq_some.1 h
          have hVal := ((hV h₃).trans (skipSpace_cons_length hSp₂)).trans hKey
          split at h
          next r₄ hSp₃ => exact ((hM h).trans (skipSpace_cons_length hSp₃)).trans hVal
          next r₄ hSp₃ => cases h; exact (skipSpace_cons_length hSp₃).trans hVal
          next => cases h
        next => cases h
      next => cases h

theorem skip_fuel : ∀ n : Nat,
    (∀ {d : Nat} {s : List UInt8} (m : Nat), 2 * s.length + 1 ≤ n → n ≤ m →
      skipValue m d s = skipValue n d s) ∧
    (∀ {d : Nat} {s : List UInt8} (m : Nat), 2 * s.length + 2 ≤ n → n ≤ m →
      skipElems m d s = skipElems n d s) ∧
    (∀ {d : Nat} {s : List UInt8} (m : Nat), 2 * s.length + 2 ≤ n → n ≤ m →
      skipMembers m d s = skipMembers n d s)
  | 0 => ⟨fun _ h => by omega, fun _ h => by omega, fun _ h => by omega⟩
  | n + 1 => by
    obtain ⟨hV, hE, hM⟩ := skip_fuel n
    refine ⟨fun {d s} m hn hm => ?_, fun {d s} m hn hm => ?_, fun {d s} m hn hm => ?_⟩ <;>
      obtain ⟨m, rfl⟩ : ∃ k, m = k + 1 := ⟨m - 1, by omega⟩
    · rw [skipValue, skipValue]
      split
      · rfl
      next b rest hSp =>
        have := skipSpace_cons_length hSp
        rw [hE m (by omega) (by omega), hM m (by omega) (by omega)]
    · rw [skipElems, skipElems, hV m (by omega) (by omega)]
      cases h₁ : skipValue n d s with
      | none => rfl
      | some r₁ =>
        have := (skip_length_lt n).1 h₁
        show (match skipSpace r₁ with | 0x2C :: r => skipElems m d r | 0x5D :: r => some r | _ => none) =
          (match skipSpace r₁ with | 0x2C :: r => skipElems n d r | 0x5D :: r => some r | _ => none)
        split
        next r₂ hSp => have := skipSpace_cons_length hSp; exact hE m (by omega) (by omega)
        all_goals rfl
    · rw [skipMembers, skipMembers]
      split
      next rest hSp =>
        have h0 := skipSpace_cons_length hSp
        cases hLit : readLiteral rest with
        | none => simp [hLit]
        | some p =>
          obtain ⟨key, r₁⟩ := p
          have h1 := readLiteral_length_le hLit
          simp only [hLit, Option.bind_eq_bind, Option.some_bind]
          split
          next r₂ hSp₂ =>
            have h2 := skipSpace_cons_length hSp₂
            rw [hV m (by omega) (by omega)]
            cases h₃ : skipValue n d r₂ with
            | none => rfl
            | some r₃ =>
              have h3 := (skip_length_lt n).1 h₃
              simp only [Option.some_bind]
              split
              next r₄ hSp₄ => have := skipSpace_cons_length hSp₄; exact hM m (by omega) (by omega)
              all_goals rfl
          all_goals rfl
      all_goals rfl

theorem skipValue_fuel {d : Nat} {s : List UInt8} {m : Nat} (hm : 2 * s.length + 1 ≤ m) :
    skipValue m d s = skipValue (2 * s.length + 1) d s :=
  (skip_fuel _).1 m le_rfl hm

end MirageNavi.Store
