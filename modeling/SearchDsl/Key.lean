import SearchDsl.Value.Identity
import SearchDsl.Value.Literal

/-!
# Names of keys

What the keys of a dictionary file under (`Key.name`).  An action files under its word, so
that it finds what is filed under the text of that word, a truth value files under zero or
one, and numbers of one value file under the same name, whatever their kind.  What is the same
as nothing but itself files under its number, and other values file under their look.  The
dictionary keeps the key that it was first given.

No key but a text and an action has the name of a text.  In JSON every key is a text
(`Key.written?`), so that different keys may be written alike, and some cannot be written.
-/

namespace SearchDsl

/-- The number `c · 10 ^ e` in lowest terms, without its sign. -/
def lowestTerms (c : Nat) (e : Int) : Nat × Int :=
  if c = 0 then (0, 0)
  else if c % 10 = 0 then lowestTerms (c / 10) (e + 1)
  else (c, e)
termination_by c

/-- The name of the number `c · 10 ^ e`, negated when `negative` is set. -/
def Name.ofDecimal (negative : Bool) (c : Nat) (e : Int) : Name :=
  let (c, e) := lowestTerms c e
  .number (Decimal.signed negative c) e

/-- The name of an integer. -/
def Name.ofInt (n : Int) : Name := .ofDecimal (n < 0) n.natAbs 0

/-- The name of a double. -/
def Name.ofFloat (x : Float) : Name :=
  match Decimal.Binary.ofFloat x with
  | .finite negative m q =>
    .ofDecimal negative (m * Nat.pow 2 q.toNat * Nat.pow 5 (-q).toNat) (min q 0)
  | .infinite negative => .infinite negative
  | .notANumber => .notANumber

/-- The number `c · 10 ^ d` is less than `e · 10 ^ f`, where a number that is zero has the exponent
zero.  Of two numbers of one sign the exponents of their first digits decide where they
differ. -/
def scaledLess (c d e f : Int) : Bool :=
  let first : Int := (Decimal.digitsOf c.natAbs).length + d
  let second : Int := (Decimal.digitsOf e.natAbs).length + f
  if c.sign ≠ e.sign then c < e
  else if first = second then c * Nat.pow 10 (d - f).toNat < e * Nat.pow 10 (f - d).toNat
  else if 0 < c then first < second
  else second < first

/-- The name comes before another one; texts and numbers are in no order. -/
def Name.before? : Name → Name → Option Bool
  | .number c d, .number e f => some (scaledLess c d e f)
  | .number _ _, .infinite negative => some !negative
  | .infinite negative, .number _ _ => some negative
  | .infinite a, .infinite b => some (a && !b)
  | .notANumber, .number _ _ | .notANumber, .infinite _ => some false
  | .number _ _, .notANumber | .infinite _, .notANumber => some false
  | .text s, .text t => some (s < t)
  | _, _ => none

/-- The name of a value. -/
def Value.name (v : Value) : Name :=
  match v with
  | .decimal (.finite negative c e) => .ofDecimal negative c e
  | .decimal (.infinite negative) => .infinite negative
  | .dateTime t =>
    let look := if t.offset.isSome then Decimal.intText t.instant else t.literal
    .object v.kind (String.ofList look)
  | v =>
    let look :=
      match v.identity? with
      | some (.known number) => Decimal.intText number.depth ++ ' ' :: Decimal.intText number.place
      | _ => v.literal
    .object v.kind (String.ofList look)

namespace Key

/-- The name that a key files under. -/
def name : Key → Name
  | .null => .null
  | .bool b => .ofInt b.toInt
  | .int n => .ofInt n
  | .float x => .ofFloat x
  | .text s => .text s
  | .action a => .text a.word
  | .object v => v.name

instance : Named Key := ⟨name⟩

@[simp]
theorem name_text (s : String) :
  Named.name (Key.text s) = Name.text s
  := rfl

/-- The text of a key in JSON, where it has one. -/
def written? : Key → Option String
  | .null => some "null"
  | .bool b => some (if b then "true" else "false")
  | .int n => some (String.ofList (Decimal.intText n))
  | .float x => some (String.ofList (Decimal.Layout.json.text x))
  | .text s => some s
  | .action a => some a.word
  | .object _ => none

/-- The key is a text or stands for one. -/
def isText (key : Key) : Bool :=
  match key.name with
  | .text _ => true
  | _ => false

end Key

end SearchDsl
