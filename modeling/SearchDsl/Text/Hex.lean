import SearchDsl.Decimal.Digits
import SearchDsl.Text.Blank
import SearchDsl.Text.Digit

/-!
# Hexadecimal digits

Hexadecimal digits in lower case, numbers of a fixed count of them, octets as pairs of
them, and the identifiers of 128 bits that are written as thirty-two of them in five
groups.

A number may be read from a looser notation as well (`readHex?`), which an identifier may
use to fill its thirty-two characters.
-/

namespace SearchDsl

/-- The hexadecimal digit of a number below sixteen. -/
def hexDigit (n : Nat) : Char := Nat.digitChar n

/-- The number that a hexadecimal digit of either case denotes. -/
def hexValue? (c : Char) : Option Nat :=
  if '0' ≤ c ∧ c ≤ '9' then some (c.toNat - '0'.toNat)
  else if 'a' ≤ c ∧ c ≤ 'f' then some (c.toNat - 'a'.toNat + 10)
  else if 'A' ≤ c ∧ c ≤ 'F' then some (c.toNat - 'A'.toNat + 10)
  else none

/-- The last `width` hexadecimal digits of `n`. -/
def hexDigits : (width : Nat) → (n : Nat) → List Char
  | 0, _ => []
  | width + 1, n => hexDigits width (n / 16) ++ [hexDigit (n % 16)]

/-- The number that hexadecimal digits denote. -/
def ofHexDigits? (ds : List Char) : Option Nat :=
  ds.foldlM (fun n d => (hexValue? d).map (16 * n + ·)) 0

/-- The digits of a number, where single underscores may stand between them. -/
def ungrouped? : (afterDigit : Bool) → List Char → Option (List Char)
  | afterDigit, [] => if afterDigit then some [] else none
  | afterDigit, '_' :: cs => if afterDigit then ungrouped? false cs else none
  | _, c :: cs => (ungrouped? true cs).map (c :: ·)

/-- The text after the mark of a hexadecimal number, where it has one. -/
def dropHexMark : List Char → List Char
  | '0' :: 'x' :: '_' :: cs => cs
  | '0' :: 'X' :: '_' :: cs => cs
  | '0' :: 'x' :: cs => cs
  | '0' :: 'X' :: cs => cs
  | cs => cs

/-- Reads a hexadecimal number, whose decimal digits may be those of any script.  There may be
blanks around it, a plus sign and a mark before it, and underscores between its digits. -/
def readHex? (cs : List Char) : Option Nat := do
  let blank := fun c => isBlank c || 0x7f < c.toNat && isSpace c
  let cs := (trimBoth blank cs).map plainDigit
  let cs := if cs.head? = some '+' then cs.drop 1 else cs
  ofHexDigits? (← ungrouped? false (dropHexMark cs))

/-! ### Octets -/

/-- Octets as two hexadecimal digits each. -/
def octetsHex (octets : List UInt8) : List Char :=
  octets.flatMap fun b => hexDigits 2 b.toNat

/-- Reads octets of two hexadecimal digits each, with or without blanks between them. -/
def parseOctets : List Char → Option (List UInt8)
  | [] => some []
  | a :: cs =>
    if isBlank a then parseOctets cs
    else
      match cs with
      | [] => none
      | b :: cs => do
        let n ← ofHexDigits? [a, b]
        let rest ← parseOctets cs
        some (UInt8.ofNat n :: rest)

/-- The text that octets encode, when they are well-formed UTF-8.  Octets that encode half of a
surrogate pair have none, since no `String` holds such a half. -/
def decodeUtf8? (octets : List UInt8) : Option String :=
  String.fromUTF8? ⟨octets.toArray⟩

/-! ### Identifiers -/

/-- An identifier of 128 bits. -/
structure Uuid where
  value : Nat

/-- The identifier in five groups of digits. -/
def Uuid.text (u : Uuid) : List Char :=
  let ds := hexDigits 32 u.value
  ds.take 8 ++ '-' :: (ds.drop 8).take 4 ++ '-' :: (ds.drop 12).take 4 ++
    '-' :: (ds.drop 16).take 4 ++ '-' :: ds.drop 20

/-- The text without the places where `word` occurs, found from left to right. -/
def dropWord (word : List Char) : List Char → List Char
  | [] => []
  | c :: cs =>
    if word.isPrefixOf (c :: cs) then dropWord word (cs.drop (word.length - 1))
    else c :: dropWord word cs
termination_by cs => cs.length

/-- Reads an identifier of thirty-two characters.  It may be marked as a resource name and be
put in braces, and hyphens are skipped. -/
def Uuid.parse (s : String) : Option Uuid :=
  let cs := dropWord "uuid:".toList (dropWord "urn:".toList s.toList)
  let ds := (trimBoth (fun c => c == '\x7b' || c == '\x7d') cs).filter (· != '-')
  if ds.length = 32 then (readHex? ds).map Uuid.mk else none

end SearchDsl
