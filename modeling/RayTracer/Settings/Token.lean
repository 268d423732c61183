import RayTracer.Settings.Numeral

/-!
# Tokens of JSON text

Text is cut into punctuation, literals, numerals and strings; blanks between them are skipped. A
token is the longest that can be read, so `05` is two numerals, which no grammar rule puts side by
side.

A string may hold the escape of half a surrogate pair. Such a string has a written form but no text,
so its content is optional.
-/

namespace RayTracer

/-- A piece of a string literal: a character, or a 16-bit code unit written as an escape. -/
inductive StringPiece where
  | char (c : Char)
  | unit (u : Nat)
deriving Repr, DecidableEq

namespace StringPiece

/-- The text of a string literal. An escaped high surrogate must be followed by an escaped low one,
and a low surrogate must not come alone. -/
def text? : List StringPiece → Option (List Char)
  | [] => some []
  | .char c :: rest => (text? rest).map (c :: ·)
  | .unit u :: rest =>
    if u < 0xd800 ∨ 0xdfff < u then (text? rest).map (Char.ofNat u :: ·)
    else if u ≤ 0xdbff then
      match rest with
      | .unit v :: rest =>
        if 0xdc00 ≤ v ∧ v ≤ 0xdfff then
          (text? rest).map (Char.ofNat (0x10000 + (u - 0xd800) * 0x400 + (v - 0xdc00)) :: ·)
        else none
      | _ => none
    else none

end StringPiece

/-- A value that takes a single token. -/
inductive Scalar where
  | null
  | bool (b : Bool)
  | number (n : Numeral)
  /-- `none` is a literal that holds half a surrogate pair. -/
  | string (text : Option String)
deriving Repr, DecidableEq, Inhabited

inductive Token where
  | openBracket
  | closeBracket
  | openBrace
  | closeBrace
  | comma
  | colon
  | scalar (s : Scalar)
deriving Repr, DecidableEq

namespace Token

/-! ## Strings -/

/-- The value of a hexadecimal digit. -/
def hexDigit? (c : Char) : Option Nat :=
  if '0' ≤ c ∧ c ≤ '9' then some (c.toNat - '0'.toNat)
  else if 'a' ≤ c ∧ c ≤ 'f' then some (c.toNat - 'a'.toNat + 10)
  else if 'A' ≤ c ∧ c ≤ 'F' then some (c.toNat - 'A'.toNat + 10)
  else none

/-- The character that a one-letter escape stands for. -/
def escape? : Char → Option Char
  | '"' => some '"'
  | '\\' => some '\\'
  | '/' => some '/'
  | 'b' => some '\x08'
  | 'f' => some '\x0c'
  | 'n' => some '\n'
  | 'r' => some '\r'
  | 't' => some '\t'
  | _ => none

/-- Reads the rest of a string literal behind its opening quote. Control characters must be
escaped. -/
def scanString : List Char → Option (List StringPiece × List Char)
  | [] => none
  | '"' :: rest => some ([], rest)
  | '\\' :: 'u' :: a :: b :: c :: d :: rest => do
    let unit :=
      (((← hexDigit? a) * 16 + (← hexDigit? b)) * 16 + (← hexDigit? c)) * 16 + (← hexDigit? d)
    let (pieces, rest) ← scanString rest
    return (.unit unit :: pieces, rest)
  | '\\' :: e :: rest => do
    let c ← escape? e
    let (pieces, rest) ← scanString rest
    return (.char c :: pieces, rest)
  | c :: rest =>
    if c.toNat < 0x20 then none
    else do
      let (pieces, rest) ← scanString rest
      return (.char c :: pieces, rest)

/-! ## Numerals -/

def digitValue (c : Char) : Nat := c.toNat - '0'.toNat

/-- The digits at the front of the text, and what follows them. -/
def scanDigits (cs : List Char) : List Nat × List Char :=
  ((cs.takeWhile Char.isDigit).map digitValue, cs.dropWhile Char.isDigit)

/-- A nonempty run of digits. -/
def scanDigits? (cs : List Char) : Option (List Nat × List Char) :=
  match scanDigits cs with
  | ([], _) => none
  | found => some found

/-- The digits before the point: a zero, or a run that does not start with one. -/
def scanWhole? : List Char → Option (List Nat × List Char)
  | '0' :: rest => some ([0], rest)
  | cs => scanDigits? cs

def scanFraction? : List Char → Option (Option (List Nat) × List Char)
  | '.' :: rest => do
    let (digits, rest) ← scanDigits? rest
    return (some digits, rest)
  | cs => some (none, cs)

/-- The digits of an exponent behind its sign. -/
def scanSigned? : List Char → Option (Int × List Char)
  | '-' :: rest =>
    (scanDigits? rest).map fun (digits, rest) => (-(Numeral.ofDigits digits : Int), rest)
  | '+' :: rest => (scanDigits? rest).map fun (digits, rest) => (Numeral.ofDigits digits, rest)
  | cs => (scanDigits? cs).map fun (digits, rest) => (Numeral.ofDigits digits, rest)

def scanExponent? : List Char → Option (Option Int × List Char)
  | c :: rest =>
    if c = 'e' ∨ c = 'E' then (scanSigned? rest).map fun (n, rest) => (some n, rest)
    else some (none, c :: rest)
  | [] => some (none, [])

/-- A numeral behind its sign. -/
def scanNumeral? (negative : Bool) (cs : List Char) : Option (Numeral × List Char) := do
  let (whole, rest) ← scanWhole? cs
  let (fraction, rest) ← scanFraction? rest
  let (exponent, rest) ← scanExponent? rest
  return ({ negative, whole, fraction, exponent }, rest)

/-! ## Text -/

/-- A literal written as a word, behind its first letter. -/
def scanWord? (s : Scalar) (word cs : List Char) : Option (Scalar × List Char) :=
  if word.isPrefixOf cs then some (s, cs.drop word.length) else none

/-- The tokens of one character. -/
def punctuation? : Char → Option Token
  | '[' => some .openBracket
  | ']' => some .closeBracket
  | '\x7b' => some .openBrace
  | '\x7d' => some .closeBrace
  | ',' => some .comma
  | ':' => some .colon
  | _ => none

/-- The value of one token that starts with a character, and the text behind it. -/
def scanScalar? (c : Char) (cs : List Char) : Option (Scalar × List Char) :=
  match c with
  | 'n' => scanWord? .null ['u', 'l', 'l'] cs
  | 't' => scanWord? (.bool true) ['r', 'u', 'e'] cs
  | 'f' => scanWord? (.bool false) ['a', 'l', 's', 'e'] cs
  | '"' => (scanString cs).map fun (pieces, rest) =>
      (.string ((StringPiece.text? pieces).map String.ofList), rest)
  | '-' => (scanNumeral? true cs).map fun (n, rest) => (.number n, rest)
  | c => (scanNumeral? false (c :: cs)).map fun (n, rest) => (.number n, rest)

/-- The token that starts with a character, and the text behind it. -/
def next? (c : Char) (cs : List Char) : Option (Token × List Char) :=
  match punctuation? c with
  | some t => some (t, cs)
  | none => (scanScalar? c cs).map fun (s, rest) => (.scalar s, rest)

/-! ## Every token shortens the text -/

theorem length_scanString {cs rest : List Char} {pieces : List StringPiece}
    (h : scanString cs = some (pieces, rest)) : rest.length < cs.length := by
  fun_induction scanString cs generalizing pieces rest <;>
    simp only [bind, Option.bind_eq_some_iff, pure, Option.some.injEq, Prod.mk.injEq,
      reduceCtorEq] at h <;>
    grind

theorem length_scanDigits? {cs rest : List Char} {digits : List Nat}
    (h : scanDigits? cs = some (digits, rest)) : rest.length < cs.length := by
  unfold scanDigits? scanDigits at h
  cases cs with
  | nil => simp at h
  | cons c cs =>
    by_cases digit : c.isDigit
    · simp only [List.takeWhile_cons, List.dropWhile_cons, digit, ↓reduceIte, List.map_cons,
        Option.some.injEq, Prod.mk.injEq] at h
      rw [← h.2, List.length_cons]
      exact Nat.lt_succ_of_le (List.dropWhile_suffix _).length_le
    · simp [digit] at h

theorem length_scanWhole? {cs rest : List Char} {digits : List Nat}
    (h : scanWhole? cs = some (digits, rest)) : rest.length < cs.length := by
  unfold scanWhole? at h
  split at h
  · simp_all
  · exact length_scanDigits? h

theorem length_scanFraction? {cs rest : List Char} {fraction : Option (List Nat)}
    (h : scanFraction? cs = some (fraction, rest)) : rest.length ≤ cs.length := by
  unfold scanFraction? at h
  split at h
  · simp only [bind, Option.bind_eq_some_iff, pure, Option.some.injEq, Prod.mk.injEq] at h
    grind [→ length_scanDigits?]
  · simp_all

theorem length_scanSigned? {cs rest : List Char} {n : Int}
    (h : scanSigned? cs = some (n, rest)) : rest.length < cs.length := by
  unfold scanSigned? at h
  split at h <;>
    simp only [Option.map_eq_some_iff, Prod.mk.injEq] at h <;>
    grind [→ length_scanDigits?]

theorem length_scanExponent? {cs rest : List Char} {exponent : Option Int}
    (h : scanExponent? cs = some (exponent, rest)) : rest.length ≤ cs.length := by
  simp only [scanExponent?.eq_def] at h
  repeat' split at h
  all_goals
    simp only [Option.map_eq_some_iff, Option.some.injEq, Prod.mk.injEq] at h
    grind [→ length_scanSigned?]

theorem length_scanNumeral? {negative : Bool} {cs rest : List Char} {n : Numeral}
    (h : scanNumeral? negative cs = some (n, rest)) : rest.length < cs.length := by
  unfold scanNumeral? at h
  simp only [bind, Option.bind_eq_some_iff, pure, Option.some.injEq, Prod.mk.injEq] at h
  grind [→ length_scanWhole?, → length_scanFraction?, → length_scanExponent?]

theorem length_scanWord? {s t : Scalar} {word cs rest : List Char}
    (h : scanWord? s word cs = some (t, rest)) : rest.length ≤ cs.length := by
  unfold scanWord? at h
  split at h <;> grind

theorem length_scanScalar? {c : Char} {cs rest : List Char} {s : Scalar}
    (h : scanScalar? c cs = some (s, rest)) : rest.length ≤ cs.length := by
  unfold scanScalar? at h
  split at h
  · exact length_scanWord? h
  · exact length_scanWord? h
  · exact length_scanWord? h
  all_goals
    simp only [Option.map_eq_some_iff, Prod.mk.injEq] at h
    grind [→ length_scanString, → length_scanNumeral?]

theorem length_next? {c : Char} {cs rest : List Char} {t : Token}
    (h : next? c cs = some (t, rest)) : rest.length ≤ cs.length := by
  unfold next? at h
  split at h
  · simp_all
  · simp only [Option.map_eq_some_iff, Prod.mk.injEq] at h
    grind [→ length_scanScalar?]

/-! ## The whole text -/

def isBlank (c : Char) : Bool := c = ' ' || c = '\t' || c = '\n' || c = '\r'

/-- The tokens of a text, unless some part of it is none. -/
def scan? : List Char → Option (List Token)
  | [] => some []
  | c :: cs =>
    if isBlank c then scan? cs
    else
      match _h : next? c cs with
      | none => none
      | some (t, rest) => (scan? rest).map (t :: ·)
termination_by cs => cs.length
decreasing_by
  · simp
  · have := length_next? _h
    simp only [List.length_cons]; omega

end Token

end RayTracer
