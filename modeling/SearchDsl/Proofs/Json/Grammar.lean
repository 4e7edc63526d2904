import SearchDsl.Decimal.Digits
import SearchDsl.Entries
import SearchDsl.Json.Basic
import SearchDsl.Text.Hex

/-!
# The grammar of JSON

`Json.IsText cs j` says that the text `cs` is JSON and denotes the data `j`.  It is the
grammar of the standard, rule by rule: blanks around tokens, the three words, numbers,
strings with their escapes, arrays and objects.

A string denotes characters, so a code unit of a pair denotes nothing on its own.  The
standard leaves open what an object denotes that repeats a name; here it denotes nothing.
A number without point and exponent denotes an integer, and any other the nearest double.
-/

namespace SearchDsl

namespace Json

open Decimal

/-- There are only blanks in the text. -/
def Blanks (cs : List Char) : Prop := ∀ c ∈ cs, c = ' ' ∨ c = '\t' ∨ c = '\n' ∨ c = '\r'

/-! ### Strings -/

/-- The letters of the one-letter escapes, each with the character that it denotes. -/
def escapes : List (Char × Char) :=
  [('"', '"'), ('\\', '\\'), ('/', '/'), ('b', '\x08'), ('f', '\x0c'), ('n', '\n'), ('r', '\r'),
    ('t', '\t')]

/-- Four hexadecimal digits of either case denote the code unit `n`. -/
def IsCodeUnit (ds : List Char) (n : Nat) : Prop := ds.length = 4 ∧ ofHexDigits? ds = some n

/-- The text of one character of a string. -/
inductive IsChar : List Char → Char → Prop where
  | plain {c : Char} (visible : 0x20 ≤ c.toNat) (not_quote : c ≠ '"') (not_mark : c ≠ '\\') :
      IsChar [c] c
  | escape {letter c : Char} (known : (letter, c) ∈ escapes) : IsChar ['\\', letter] c
  | unit {ds : List Char} {n : Nat} (digits : IsCodeUnit ds n) (single : n < 0xD800 ∨ 0xE000 ≤ n) :
      IsChar ('\\' :: 'u' :: ds) (Char.ofNat n)
  | pair {ds es : List Char} {high low : Nat} (first : IsCodeUnit ds high) (second : IsCodeUnit es low)
      (is_high : 0xD800 ≤ high ∧ high < 0xDC00) (is_low : 0xDC00 ≤ low ∧ low < 0xE000) :
      IsChar ('\\' :: 'u' :: ds ++ '\\' :: 'u' :: es)
        (Char.ofNat (0x10000 + (high - 0xD800) * 0x400 + (low - 0xDC00)))

/-- The text of the characters of a string, between its quotes. -/
inductive IsChars : List Char → List Char → Prop where
  | nil : IsChars [] []
  | cons {cs ds s : List Char} {c : Char} (first : IsChar cs c) (others : IsChars ds s) :
      IsChars (cs ++ ds) (c :: s)

/-- The text of a string. -/
inductive IsString : List Char → String → Prop where
  | mk {cs s : List Char} (inside : IsChars cs s) :
      IsString ('"' :: (cs ++ ['"'])) (String.ofList s)

/-! ### Numbers -/

/-- At least one digit, and nothing but digits. -/
def IsDigits (ds : List Char) : Prop := ds ≠ [] ∧ ∀ c ∈ ds, c.isDigit

/-- The digits before the point, without zeros at their start. -/
def IsWhole (ds : List Char) : Prop := IsDigits ds ∧ (ds.head? = some '0' → ds = ['0'])

/-- The text of the places after the point. -/
inductive IsPlaces : List Char → Option (List Char) → Prop where
  | absent : IsPlaces [] none
  | present {ds : List Char} (digits : IsDigits ds) : IsPlaces ('.' :: ds) (some ds)

/-- The text of a sign in an exponent. -/
inductive IsSign : List Char → Bool → Prop where
  | absent : IsSign [] false
  | plus : IsSign ['+'] false
  | minus : IsSign ['-'] true

/-- The text of an exponent. -/
inductive IsExponent : List Char → Option Int → Prop where
  | absent : IsExponent [] none
  | present {mark : Char} {sign ds : List Char} {negative : Bool} (marked : mark = 'e' ∨ mark = 'E')
      (signed : IsSign sign negative) (digits : IsDigits ds) :
      IsExponent (mark :: (sign ++ ds)) (some (Decimal.signed negative (ofDigits ds)))

/-- The number with the given sign, digits before and after the point, and exponent. -/
def ofParts (negative : Bool) (whole : List Char) (places : Option (List Char))
    (exponent : Option Int) : Json :=
  if places.isNone && exponent.isNone then .int (signed negative (ofDigits whole))
  else
    let ds := places.getD []
    let x := nearestFloat (ofDigits (whole ++ ds)) (exponent.getD 0 - ds.length)
    .float (if negative then -x else x)

/-- The text of a number. -/
inductive IsNumber : List Char → Json → Prop where
  | mk {whole fs es : List Char} {places : Option (List Char)} {exponent : Option Int}
      (negative : Bool) (is_whole : IsWhole whole) (is_places : IsPlaces fs places)
      (is_exponent : IsExponent es exponent) :
      IsNumber (signText negative ++ (whole ++ (fs ++ es)))
        (ofParts negative whole places exponent)

/-! ### Values -/

/-- What a part of a text denotes: a value, or the items or the fields between the marks of an
array or an object. -/
inductive Phrase where
  | value (j : Json)
  | items (js : List Json)
  | fields (fs : List (String × Json))

/-- The text spells the phrase. -/
inductive Spells : List Char → Phrase → Prop where
  | null : Spells "null".toList (.value .null)
  | true : Spells "true".toList (.value (.bool true))
  | false : Spells "false".toList (.value (.bool false))
  | number {cs : List Char} {j : Json} (h : IsNumber cs j) : Spells cs (.value j)
  | string {cs : List Char} {s : String} (h : IsString cs s) : Spells cs (.value (.str s))
  | emptyArray {bs : List Char} (inside : Blanks bs) :
      Spells ('[' :: (bs ++ [']'])) (.value (.arr []))
  | array {cs : List Char} {js : List Json} (inside : Spells cs (.items js)) :
      Spells ('[' :: (cs ++ [']'])) (.value (.arr js))
  | emptyObject {bs : List Char} (inside : Blanks bs) :
      Spells ('\x7b' :: (bs ++ ['\x7d'])) (.value (.obj []))
  | object {cs : List Char} {fs : List (String × Json)} (inside : Spells cs (.fields fs))
      (distinct : Entries.Distinct fs) :
      Spells ('\x7b' :: (cs ++ ['\x7d'])) (.value (.obj fs))
  | lastItem {as cs bs : List Char} {j : Json} (before : Blanks as) (item : Spells cs (.value j))
      (after : Blanks bs) :
      Spells (as ++ (cs ++ bs)) (.items [j])
  | item {as cs bs ds : List Char} {j : Json} {js : List Json} (before : Blanks as)
      (item : Spells cs (.value j)) (after : Blanks bs) (others : Spells ds (.items js)) :
      Spells (as ++ (cs ++ (bs ++ ',' :: ds))) (.items (j :: js))
  | lastField {as ns bs cs vs ds : List Char} {name : String} {j : Json} (before : Blanks as)
      (is_name : IsString ns name) (after_name : Blanks bs) (before_value : Blanks cs)
      (value : Spells vs (.value j)) (after : Blanks ds) :
      Spells (as ++ (ns ++ (bs ++ ':' :: (cs ++ (vs ++ ds))))) (.fields [(name, j)])
  | field {as ns bs cs vs ds es : List Char} {name : String} {j : Json} {fs : List (String × Json)}
      (before : Blanks as) (is_name : IsString ns name) (after_name : Blanks bs)
      (before_value : Blanks cs) (value : Spells vs (.value j)) (after : Blanks ds)
      (others : Spells es (.fields fs)) :
      Spells (as ++ (ns ++ (bs ++ ':' :: (cs ++ (vs ++ (ds ++ ',' :: es))))))
        (.fields ((name, j) :: fs))

/-- The text is JSON and denotes `j`. -/
inductive IsText : List Char → Json → Prop where
  | mk {as cs bs : List Char} {j : Json} (before : Blanks as) (value : Spells cs (.value j))
      (after : Blanks bs) :
      IsText (as ++ (cs ++ bs)) j

end Json

end SearchDsl
