import SearchDsl.Text.Hex

/-!
# Quoted text

Text and octets between quotes.  The quote is the single one unless the text holds it and
does not hold the double one.  The quote and the backslash are escaped, and so is every
character that has no visible form.
-/

namespace SearchDsl

/-- Ranges of the characters without a visible form, the common blank excepted: controls,
separators, format characters and private use. -/
def invisibleRanges : List (Nat × Nat) :=
  [(0x00, 0x1F), (0x7F, 0xA0), (0xAD, 0xAD), (0x600, 0x605), (0x61C, 0x61C), (0x6DD, 0x6DD),
    (0x70F, 0x70F), (0x890, 0x891), (0x8E2, 0x8E2), (0x1680, 0x1680), (0x180E, 0x180E),
    (0x2000, 0x200F), (0x2028, 0x202F), (0x205F, 0x206F), (0x3000, 0x3000),
    (0xE000, 0xF8FF), (0xFEFF, 0xFEFF), (0xFFF0, 0xFFFB), (0xFFFE, 0xFFFF),
    (0x110BD, 0x110BD), (0x110CD, 0x110CD), (0x13430, 0x1343F), (0x1BCA0, 0x1BCA3),
    (0x1D173, 0x1D17A), (0xE0000, 0xE00FF), (0xE01F0, 0x10FFFF)]

/-- A character without a visible form. -/
def isInvisible (c : Char) : Bool :=
  invisibleRanges.any fun r => r.1 ≤ c.toNat && c.toNat ≤ r.2

/-- The quote to be used around `cs`. -/
def quoteFor (cs : List Char) : Char :=
  if cs.contains '\'' && !cs.contains '"' then '"' else '\''

/-- The escape of a character by its number. -/
def numberEscape (n : Nat) : List Char :=
  if n < 0x100 then '\\' :: 'x' :: hexDigits 2 n
  else if n < 0x10000 then '\\' :: 'u' :: hexDigits 4 n
  else '\\' :: 'U' :: hexDigits 8 n

/-- The text of a character between quotes; `hidden` tells the characters to be escaped by
their number. -/
def quotedChar (quote : Char) (hidden : Char → Bool) (c : Char) : List Char :=
  if c = quote ∨ c = '\\' then ['\\', c]
  else if c = '\n' then ['\\', 'n']
  else if c = '\r' then ['\\', 'r']
  else if c = '\t' then ['\\', 't']
  else if hidden c then numberEscape c.toNat
  else [c]

/-- Characters between quotes. -/
def quotedWith (hidden : Char → Bool) (cs : List Char) : List Char :=
  let quote := quoteFor cs
  quote :: cs.flatMap (quotedChar quote hidden) ++ [quote]

/-- A text between quotes. -/
def quotedText (s : String) : List Char := quotedWith isInvisible s.toList

/-- Octets between quotes, each as the ASCII character with its number where that is visible. -/
def quotedOctets (octets : List UInt8) : List Char :=
  'b' :: quotedWith (fun c => c.toNat < 0x20 || 0x7F ≤ c.toNat)
    (octets.map fun b => Char.ofNat b.toNat)

end SearchDsl
