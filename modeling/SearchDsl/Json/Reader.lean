import SearchDsl.Entries
import SearchDsl.Json.Basic
import SearchDsl.Decimal.Digits
import SearchDsl.Text.Hex

/-!
# Reading JSON

`Json.parse` reads JSON text.  A number without point and exponent is an integer, any
other a double, and the doubles that no digits denote have words.  A name that an object
repeats keeps its first place and takes its last value.  Each step of the reader spends one
unit of its fuel, and one unit more than the text has characters is enough.
-/

namespace SearchDsl

namespace Json

open Decimal

/-- The text without the blanks at its start. -/
def skipBlanks : List Char → List Char
  | [] => []
  | c :: cs =>
    if c = ' ' ∨ c = '\t' ∨ c = '\n' ∨ c = '\r' then skipBlanks cs else c :: cs

/-! ### Strings -/

/-- The character of a pair of code units. -/
def ofUnits (high low : Nat) : Char :=
  Char.ofNat (0x10000 + (high - 0xD800) * 0x400 + (low - 0xDC00))

/-- The character that a one-letter escape denotes. -/
def unescape? : Char → Option Char
  | '"' => some '"'
  | '\\' => some '\\'
  | '/' => some '/'
  | 'n' => some '\n'
  | 'r' => some '\r'
  | 't' => some '\t'
  | 'b' => some '\x08'
  | 'f' => some '\x0c'
  | _ => none

/-- Puts a character before a string that was read. -/
def consChar (c : Char) : Option (List Char × List Char) → Option (List Char × List Char) :=
  Option.map fun r => (c :: r.1, r.2)

/-- Reads a string after its opening quote. -/
def readString : List Char → Option (List Char × List Char)
  | [] => none
  | '"' :: cs => some ([], cs)
  | '\\' :: 'u' :: a :: b :: c :: d :: cs =>
    match ofHexDigits? [a, b, c, d] with
    | none => none
    | some n =>
      if 0xD800 ≤ n ∧ n < 0xDC00 then
        match cs with
        | '\\' :: 'u' :: e :: f :: g :: h :: cs =>
          match ofHexDigits? [e, f, g, h] with
          | none => none
          | some m =>
            if 0xDC00 ≤ m ∧ m < 0xE000 then consChar (ofUnits n m) (readString cs) else none
        | _ => none
      else if 0xDC00 ≤ n ∧ n < 0xE000 then none
      else consChar (Char.ofNat n) (readString cs)
  | '\\' :: c :: cs =>
    match unescape? c with
    | none => none
    | some d => consChar d (readString cs)
  | c :: cs => if c.toNat < 0x20 then none else consChar c (readString cs)

/-! ### Numbers -/

/-- Reads the places after a point; without a point there are none. -/
def readPlaces : List Char → Option (Option (List Char) × List Char)
  | '.' :: cs =>
    let ds := cs.takeWhile Char.isDigit
    if ds.isEmpty then none else some (some ds, cs.dropWhile Char.isDigit)
  | cs => some (none, cs)

/-- Reads an exponent. -/
def readExponent : List Char → Option (Option Int × List Char)
  | [] => some (none, [])
  | c :: cs =>
    if c = 'e' ∨ c = 'E' then
      let (negative, cs) := splitSign cs
      let ds := cs.takeWhile Char.isDigit
      if ds.isEmpty then none
      else some (some (signed negative (ofDigits ds)), cs.dropWhile Char.isDigit)
    else some (none, c :: cs)

/-- Reads a number after its sign. -/
def readUnsigned (negative : Bool) (cs : List Char) : Option (Json × List Char) := do
  let whole := cs.takeWhile Char.isDigit
  let (places, rest) ← readPlaces (cs.dropWhile Char.isDigit)
  let (exponent, rest) ← readExponent rest
  if whole.isEmpty || (whole.head? == some '0' && whole.length != 1) then none
  else if places.isNone && exponent.isNone then
    some (.int (signed negative (ofDigits whole)), rest)
  else
    let ds := places.getD []
    let x := nearestFloat (ofDigits (whole ++ ds)) (exponent.getD 0 - ds.length)
    some (.float (if negative then -x else x), rest)

/-- Reads a number or the word for an infinite one. -/
def readNumber (cs : List Char) : Option (Json × List Char) :=
  let (negative, cs) := if cs.head? = some '-' then (true, cs.drop 1) else (false, cs)
  match cs with
  | 'I' :: 'n' :: 'f' :: 'i' :: 'n' :: 'i' :: 't' :: 'y' :: cs =>
    some (.float (if negative then -1.0 / 0.0 else 1.0 / 0.0), cs)
  | cs => readUnsigned negative cs

/-! ### Values -/

mutual

/-- Reads one value and returns the text after it. -/
def readValue : (fuel : Nat) → List Char → Option (Json × List Char)
  | 0, _ => none
  | fuel + 1, cs =>
    match skipBlanks cs with
    | 'n' :: 'u' :: 'l' :: 'l' :: cs => some (.null, cs)
    | 't' :: 'r' :: 'u' :: 'e' :: cs => some (.bool true, cs)
    | 'f' :: 'a' :: 'l' :: 's' :: 'e' :: cs => some (.bool false, cs)
    | 'N' :: 'a' :: 'N' :: cs => some (.float (0.0 / 0.0), cs)
    | '"' :: cs => (readString cs).map fun r => (.str (String.ofList r.1), r.2)
    | '[' :: cs =>
      match skipBlanks cs with
      | ']' :: cs => some (.arr [], cs)
      | cs => (readItems fuel cs).map fun r => (.arr r.1, r.2)
    | '\x7b' :: cs =>
      match skipBlanks cs with
      | '\x7d' :: cs => some (.obj [], cs)
      | cs => (readFields fuel cs).map fun r => (.obj (Entries.ofPairs r.1), r.2)
    | cs => readNumber cs

/-- Reads the items of an array, of which there is at least one, and its closing bracket. -/
def readItems : (fuel : Nat) → List Char → Option (List Json × List Char)
  | 0, _ => none
  | fuel + 1, cs =>
    match readValue fuel cs with
    | none => none
    | some (j, cs) =>
      match skipBlanks cs with
      | ']' :: cs => some ([j], cs)
      | ',' :: cs => (readItems fuel cs).map fun r => (j :: r.1, r.2)
      | _ => none

/-- Reads the fields of an object, of which there is at least one, and its closing brace. -/
def readFields : (fuel : Nat) → List Char → Option (List (String × Json) × List Char)
  | 0, _ => none
  | fuel + 1, cs =>
    match skipBlanks cs with
    | '"' :: cs =>
      match readString cs with
      | none => none
      | some (name, cs) =>
        match skipBlanks cs with
        | ':' :: cs =>
          match readValue fuel cs with
          | none => none
          | some (j, cs) =>
            match skipBlanks cs with
            | '\x7d' :: cs => some ([(String.ofList name, j)], cs)
            | ',' :: cs =>
              (readFields fuel cs).map fun r => ((String.ofList name, j) :: r.1, r.2)
            | _ => none
        | _ => none
    | _ => none

end

/-- Reads a text that holds one value and blanks around it. -/
def parse (cs : List Char) : Option Json :=
  match readValue (cs.length + 1) cs with
  | some (j, rest) => if (skipBlanks rest).isEmpty then some j else none
  | none => none

end Json

end SearchDsl
