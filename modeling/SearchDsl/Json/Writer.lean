import SearchDsl.Json.Basic
import SearchDsl.Decimal.Layout
import SearchDsl.Text.Hex

/-!
# JSON text

`Json.chars style j` is the text of the JSON data `j` on one line.  A `Style` fixes the
marks between items and after field names, and whether characters outside the printable
ASCII range are escaped.  In either style quotes, backslashes and control characters are
escaped, so no text holds a line break.
-/

namespace SearchDsl

namespace Json

/-- How JSON data is written on one line. -/
structure Style where
  /-- The blanks after the comma between items. -/
  afterComma : List Char
  /-- The blanks after the colon that follows a field's name. -/
  afterColon : List Char
  /-- Only printable ASCII characters are written as they are. -/
  asciiOnly : Bool

/-- Without blanks, and with all characters but control characters as they are. -/
def Style.compact : Style := ⟨[], [], false⟩

/-- With a blank after each mark, in ASCII. -/
def Style.spaced : Style := ⟨[' '], [' '], true⟩

/-- The escape of a sixteen-bit code unit. -/
def unitEscape (n : Nat) : List Char := '\\' :: 'u' :: hexDigits 4 n

/-- The escape of a character by one code unit, or by a pair for the characters above. -/
def codeEscape (c : Char) : List Char :=
  let n := c.toNat
  if n < 0x10000 then unitEscape n
  else unitEscape (0xD800 + (n - 0x10000) / 0x400) ++ unitEscape (0xDC00 + (n - 0x10000) % 0x400)

/-- The text of a character inside a string. -/
def escape (style : Style) (c : Char) : List Char :=
  if c = '"' then ['\\', '"']
  else if c = '\\' then ['\\', '\\']
  else if c = '\n' then ['\\', 'n']
  else if c = '\r' then ['\\', 'r']
  else if c = '\t' then ['\\', 't']
  else if c = '\x08' then ['\\', 'b']
  else if c = '\x0c' then ['\\', 'f']
  else if c.toNat < 0x20 then codeEscape c
  else if style.asciiOnly && 0x7F ≤ c.toNat then codeEscape c
  else [c]

/-- The text of a string. -/
def quoted (style : Style) (s : String) : List Char :=
  '"' :: s.toList.flatMap (escape style) ++ ['"']

mutual

/-- The text of JSON data. -/
def chars (style : Style) : Json → List Char
  | .null => "null".toList
  | .bool true => "true".toList
  | .bool false => "false".toList
  | .int n => Decimal.intText n
  | .float x => Decimal.Layout.json.text x
  | .str s => quoted style s
  | .arr [] => ['[', ']']
  | .arr (j :: items) => '[' :: chars style j ++ itemsChars style items ++ [']']
  | .obj [] => ['\x7b', '\x7d']
  | .obj ((name, j) :: fields) =>
    '\x7b' :: quoted style name ++ ':' :: style.afterColon ++ chars style j ++
      fieldsChars style fields ++ ['\x7d']

/-- The text of the items after the first, each with the comma before it. -/
def itemsChars (style : Style) : List Json → List Char
  | [] => []
  | j :: items => ',' :: style.afterComma ++ chars style j ++ itemsChars style items

/-- The text of the fields after the first, each with the comma before it. -/
def fieldsChars (style : Style) : List (String × Json) → List Char
  | [] => []
  | (name, j) :: fields =>
    ',' :: style.afterComma ++ quoted style name ++ ':' :: style.afterColon ++ chars style j ++
      fieldsChars style fields

end

/-- The text of JSON data without blanks. -/
def compact (j : Json) : String := String.ofList (chars .compact j)

end Json

end SearchDsl
