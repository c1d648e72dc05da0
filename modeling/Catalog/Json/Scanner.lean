import Catalog.Json.Node

/-!
The strings, numbers and words of JSON text. Each is read twice over: strictly, for a decoder that
wants its value, and leniently, for a reader that only has to find its end. The two differ on
unpaired surrogates, which only the strict reading refuses, and on a number that the end of the
text breaks off.
-/
namespace Catalog.Json

/-- What is left of a text, or the flaw that keeps a reader from getting past this place. -/
abbrev Rest := Except Flaw (List Char)

/-- A piece of text read strictly, and where it ends. -/
structure Scan (α : Type) where
  value : Except Flaw α
  rest : Rest

namespace Scan

variable {α β : Type}

def flawed (f : Flaw) : Scan α :=
  ⟨.error f, .error f⟩

def map (f : α → β) (s : Scan α) : Scan β :=
  ⟨s.value.map f, s.rest⟩

/-- Keeps the end but refuses the value. -/
def refuse (f : Flaw) (s : Scan α) : Scan α :=
  ⟨.error f, s.rest⟩

end Scan

def isBlank (c : Char) : Bool :=
  c = ' ' || c = '\n' || c = '\t' || c = '\r'

def skipBlank (s : List Char) : List Char :=
  s.dropWhile isBlank

def hexValue? (c : Char) : Option Nat :=
  if '0' ≤ c ∧ c ≤ '9' then some (c.toNat - '0'.toNat)
  else if 'a' ≤ c ∧ c ≤ 'f' then some (c.toNat - 'a'.toNat + 10)
  else if 'A' ≤ c ∧ c ≤ 'F' then some (c.toNat - 'A'.toNat + 10)
  else none

/-- The 16-bit unit that four hexadecimal digits denote. -/
def codeUnit? (a b c d : Char) : Option Nat := do
  let a ← hexValue? a
  let b ← hexValue? b
  let c ← hexValue? c
  let d ← hexValue? d
  pure (((a * 16 + b) * 16 + c) * 16 + d)

/-- The flaw of an escape with less than four characters after it: they may still fill the four
bytes that are looked at. -/
def shortEscape (s : List Char) : Flaw :=
  if (String.ofList s).utf8ByteSize < 4 then .cutShort else .malformed

def isHighSurrogate (unit : Nat) : Bool :=
  0xD800 ≤ unit && unit < 0xDC00

def isLowSurrogate (unit : Nat) : Bool :=
  0xDC00 ≤ unit && unit < 0xE000

def joinSurrogates (high low : Nat) : Char :=
  Char.ofNat (0x10000 + (high - 0xD800) * 0x400 + (low - 0xDC00))

/-- The low surrogate that must follow a high one as an escape of its own. -/
def lowSurrogate : List Char → Except Flaw Nat
  | [] => .error .cutShort
  | b :: s =>
    if b = '\\' then
      match s with
      | [] => .error .cutShort
      | u :: s =>
        if u = 'u' then
          match s with
          | a :: b :: c :: d :: _ =>
            match codeUnit? a b c d with
            | some unit => if isLowSurrogate unit then .ok unit else .error .malformed
            | none => .error .malformed
          | s => .error (shortEscape s)
        else .error .malformed
    else .error .malformed

/-- The character that a backslash and a letter stand for. -/
def shortEscapes : List (Char × Char) :=
  [('"', '"'), ('\\', '\\'), ('/', '/'), ('b', '\x08'), ('f', '\x0c'), ('n', '\n'), ('r', '\r'),
    ('t', '\t')]

/-- A string after its opening quote. The count is of characters to pass over: they belong to a
pair of escapes already taken together. -/
def scanString : Nat → List Char → Scan (List Char)
  | _, [] => .flawed .cutShort
  | skip + 1, _ :: s => scanString skip s
  | 0, c :: s =>
    if c = '"' then ⟨.ok [], .ok s⟩
    else if c = '\\' then
      match s with
      | [] => .flawed .cutShort
      | e :: s =>
        if e = 'u' then
          match s with
          | a :: b :: c :: d :: s =>
            match codeUnit? a b c d with
            | none => .flawed .malformed
            | some unit =>
              if isHighSurrogate unit then
                match lowSurrogate s with
                | .ok low => (scanString 6 s).map (joinSurrogates unit low :: ·)
                | .error f => (scanString 0 s).refuse f
              else if isLowSurrogate unit then (scanString 0 s).refuse .malformed
              else (scanString 0 s).map (Char.ofNat unit :: ·)
          | s => .flawed (shortEscape s)
        else
          match shortEscapes.lookup e with
          | some c => (scanString 0 s).map (c :: ·)
          | none => .flawed .malformed
    else if c.toNat < 32 then .flawed .malformed
    else (scanString 0 s).map (c :: ·)

/-- Decimal digits, at least one of them. -/
def scanDigits (s : List Char) : Except Flaw (List Char × List Char) :=
  match s.takeWhile Char.isDigit, s.dropWhile Char.isDigit with
  | [], [] => .error .cutShort
  | [], _ :: _ => .error .malformed
  | ds, rest => .ok (ds, rest)

/-- Digits without a leading zero. -/
def scanWhole (s : List Char) : Except Flaw (List Char × List Char) := do
  let (ds, rest) ← scanDigits s
  match ds with
  | '0' :: _ :: _ => .error .malformed
  | ds => .ok (ds, rest)

def scanFraction : List Char → Except Flaw (Option (List Char) × List Char)
  | '.' :: s => (scanDigits s).map fun (ds, rest) => (some ds, rest)
  | s => .ok (none, s)

def scanExponent : List Char → Except Flaw (Option Int × List Char)
  | c :: s =>
    if c = 'e' ∨ c = 'E' then
      let (negative, s) := match s with
        | '-' :: s => (true, s)
        | '+' :: s => (false, s)
        | s => (false, s)
      (scanDigits s).map fun (ds, rest) =>
        let n : Int := Numeral.natOf ds
        (some (if negative then -n else n), rest)
    else .ok (none, c :: s)
  | [] => .ok (none, [])

/-- A number from its sign or first digit on. -/
def scanNumeral (s : List Char) : Except Flaw (Numeral × List Char) := do
  let (negative, s) := match s with
    | '-' :: s => (true, s)
    | s => (false, s)
  let (whole, s) ← scanWhole s
  let (fraction, s) ← scanFraction s
  let (exponent, s) ← scanExponent s
  let isWhole := fraction.isNone && exponent.isNone
  pure ({ negative, whole, fraction := fraction.getD [], exponent, isWhole }, s)

def startsNumeral (c : Char) : Bool :=
  c = '-' || c.isDigit

/-- The rest of a word of which the first letter has been seen. -/
def scanWord : List Char → List Char → Rest
  | [], s => .ok s
  | _ :: _, [] => .error .cutShort
  | w :: word, c :: s => if w = c then scanWord word s else .error .malformed

/-- A key after its opening quote. A number in it is read from the text as it stands, whether or
not the string is any good. -/
def scanKey (s : List Char) : Key × Rest :=
  let string := scanString 0 s
  let numeral := match s with
    | c :: _ => if startsNumeral c then scanNumeral s else .error .malformed
    | [] => .error .malformed
  let isNumeral := match numeral with
    | .ok (_, '"' :: _) => true
    | _ => false
  (⟨string.value.map String.ofList, numeral.map (·.1), isNumeral⟩, string.rest)

end Catalog.Json
