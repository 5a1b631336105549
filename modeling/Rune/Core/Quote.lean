import Mathlib.Tactic.IntervalCases
import Mathlib.Tactic.Ring
import Rune.Core.Cut

/-!
# Quoted strings

The literals of strings between double quotes: what is not printable is escaped by its
code, and reading a literal back collects the bytes of a UTF-8 text. Texts are lists of
characters here, so a literal whose bytes are no UTF-8 text is not read.
-/

namespace Rune.Core

open List

/-- The characters that are printed as they are. Beyond ASCII that is a table of the Unicode
standard. -/
structure Printable where
  isPrint : Char → Bool
  ascii : ∀ c : Char, c.toNat < 0x80 → isPrint c = decide (0x20 ≤ c.toNat ∧ c.toNat < 0x7f)

/-- The digits of a number in base sixteen, to a fixed width. -/
def hexDigits : ℕ → ℕ → List Char
  | 0, _ => []
  | width + 1, n => hexDigits width (n / 16) ++ [Nat.digitChar (n % 16)]

/-- The control characters that have a letter of their own. -/
def letters : List (Char × Char) :=
  [('\x07', 'a'), ('\x08', 'b'), ('\x0c', 'f'), ('\n', 'n'), ('\r', 'r'), ('\t', 't'),
    ('\x0b', 'v')]

/-- One character in a literal. -/
def escape (p : Printable) (c : Char) : List Char :=
  if c = '"' ∨ c = '\\' then ['\\', c]
  else if p.isPrint c then [c]
  else match letters.find? fun e => e.1 == c with
    | some e => ['\\', e.2]
    | none =>
      if c.toNat < 0x20 ∨ c.toNat = 0x7f then '\\' :: 'x' :: hexDigits 2 c.toNat
      else if c.toNat < 0x10000 then '\\' :: 'u' :: hexDigits 4 c.toNat
      else '\\' :: 'U' :: hexDigits 8 c.toNat

/-- A quoted literal. -/
def quote (p : Printable) (s : List Char) : List Char := '"' :: (s.flatMap (escape p) ++ ['"'])

/-- The value of a digit in base sixteen. -/
def unhex (c : Char) : Option ℕ :=
  if '0' ≤ c ∧ c ≤ '9' then some (c.toNat - '0'.toNat)
  else if 'a' ≤ c ∧ c ≤ 'f' then some (c.toNat - 'a'.toNat + 10)
  else if 'A' ≤ c ∧ c ≤ 'F' then some (c.toNat - 'A'.toNat + 10)
  else none

/-- Read a fixed number of digits in base sixteen, after the value `v`. -/
def readHex : ℕ → ℕ → List Char → Option (ℕ × List Char)
  | 0, v, s => some (v, s)
  | _ + 1, _, [] => none
  | width + 1, v, c :: s => (unhex c).bind fun x => readHex width (16 * v + x) s

/-- Read an octal digit after the value `v`. -/
def readOctal (v : ℕ) : List Char → Option (ℕ × List Char)
  | c :: s => if '0' ≤ c ∧ c ≤ '7' then some (8 * v + (c.toNat - '0'.toNat), s) else none
  | [] => none

/-- The bytes of a character that is given by its code. -/
def encodeRune (r : ℕ × List Char) : Option (List UInt8 × List Char) :=
  if r.1.isValidChar then some (String.utf8EncodeChar (Char.ofNat r.1), r.2) else none

/-- The escapes of one letter, with their bytes. -/
def shortEscapes : List (Char × UInt8) :=
  [('a', 0x07), ('b', 0x08), ('f', 0x0c), ('n', 0x0a), ('r', 0x0d), ('t', 0x09), ('v', 0x0b),
    ('\\', 0x5c), ('"', 0x22)]

/-- The bytes of an escape, after its backslash, and what follows. -/
def unquoteEscape (c : Char) (s : List Char) : Option (List UInt8 × List Char) :=
  match shortEscapes.lookup c with
  | some b => some ([b], s)
  | none =>
    if c = 'x' then (readHex 2 0 s).map fun r => ([UInt8.ofNat r.1], r.2)
    else if c = 'u' then (readHex 4 0 s).bind encodeRune
    else if c = 'U' then (readHex 8 0 s).bind encodeRune
    else
      (((readOctal 0 (c :: s)).bind fun r => readOctal r.1 r.2).bind fun r =>
        readOctal r.1 r.2).bind fun r => if 255 < r.1 then none else some ([UInt8.ofNat r.1], r.2)

/-- The bytes of the first character of a literal, and what follows. -/
def unquoteChar : List Char → Option (List UInt8 × List Char)
  | [] => none
  | ['\\'] => none
  | '\\' :: c :: s => unquoteEscape c s
  | c :: s => if c = '"' then none else some (String.utf8EncodeChar c, s)

/-- The bytes of a literal up to its closing quote, and what follows. Every character takes
one round. -/
def unquoteLoop : ℕ → List Char → Option (List UInt8 × List Char)
  | 0, _ => none
  | _ + 1, [] => none
  | fuel + 1, c :: s =>
    if c = '"' then some ([], s)
    else if c = '\n' then none
    else (unquoteChar (c :: s)).bind fun r =>
      (unquoteLoop fuel r.2).map fun t => (r.1 ++ t.1, t.2)

/-- The text of a literal, where its bytes are a text. -/
def unquote : List Char → Option (List Char)
  | '"' :: s =>
    match unquoteLoop (s.length + 1) s with
    | some (bytes, []) => bytes.toByteArray.utf8Decode?.map Array.toList
    | _ => none
  | _ => none

/-- The table of plain ASCII: nothing beyond it is printed. -/
def Printable.ofAscii : Printable where
  isPrint c := decide (0x20 ≤ c.toNat ∧ c.toNat < 0x7f)
  ascii _ _ := rfl

end Rune.Core
