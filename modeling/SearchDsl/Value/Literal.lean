import SearchDsl.Value.Basic
import SearchDsl.Calendar.Writer
import SearchDsl.Decimal.Layout
import SearchDsl.Text.Quoted

/-!
# Literals

`Value.literal` is the text of a value inside a message: containers with their items,
text between quotes, calendar and decimal values and query objects as calls.
`Value.display` is the text of a value that is used as a name; it differs from the literal
for text and for the values with a standard notation.

A message cannot be written where it has to show an object that fails to be shown, or an integer
of more digits than are converted to text.  `Value.shown` is the literal or the fault of that.
-/

namespace SearchDsl

/-- Texts with a comma and a blank between them. -/
def commaSeparated : List (List Char) → List Char
  | [] => []
  | [t] => t
  | t :: ts => t ++ ',' :: ' ' :: commaSeparated ts

/-- The name of something called with arguments. -/
def callText (name : String) (args : List (List Char)) : List Char :=
  name.toList ++ '(' :: commaSeparated args ++ [')']

/-- A date as a call. -/
def Date.literal (d : Date) : List Char :=
  callText "datetime.date" ([d.year, d.month, d.day].map Decimal.digitsOf)

/-- A number with a name, unless it is zero. -/
def namedNumber (name : String) (n : Nat) : List (List Char) :=
  if n = 0 then [] else [name.toList ++ '=' :: Decimal.digitsOf n]

/-- An offset as a call, with a negative one as a negative day and the time after it. -/
def offsetLiteral (offset : Int) : List Char :=
  if offset = 0 then "datetime.timezone.utc".toList
  else
    let day := if offset < 0 then ["days=-1".toList] else []
    let time := (offset % 86400000000).toNat
    callText "datetime.timezone"
      [callText "datetime.timedelta" (day ++ namedNumber "seconds" (time / 1000000) ++
        namedNumber "microseconds" (time % 1000000))]

/-- A moment as a call, without the seconds and microseconds that are zero at its end. -/
def DateTime.literal (t : DateTime) : List Char :=
  callText "datetime.datetime"
    ([t.date.year, t.date.month, t.date.day, t.clock.hour, t.clock.minute].map Decimal.digitsOf ++
      (if t.clock.second = 0 ∧ t.clock.microsecond = 0 then []
       else [Decimal.digitsOf t.clock.second]) ++
      (if t.clock.microsecond = 0 then [] else [Decimal.digitsOf t.clock.microsecond]) ++
      (match t.offset with
        | none => []
        | some offset => ["tzinfo=".toList ++ offsetLiteral offset]))

/-- An action as a constant. -/
def Action.constant (a : Action) : List Char :=
  "BulkAction.".toList ++ a.word.toList.map Char.toUpper

/-- An action inside a message: the constant with its word. -/
def Action.literal (a : Action) : List Char :=
  '<' :: a.constant ++ ':' :: ' ' :: quotedText a.word ++ ['>']

/-- A truth value inside a message. -/
def boolLiteral (b : Bool) : List Char := if b then "True".toList else "False".toList

/-- The name of a parameter in a call, with two underscores for every dot. -/
def paramName (name : String) : List Char :=
  name.toList.flatMap fun c => if c = '.' then ['_', '_'] else [c]

/-- How much is shown of a dictionary that a query object hands out. -/
def shownLength : Nat := 60

/-- The text of a dictionary that a query object hands out, which is cut when it is long. -/
def shortened (text : List Char) : List Char :=
  if text.length ≤ shownLength then text
  else text.take shownLength ++ ['.', '.', '.', '\x7d']

namespace Value

mutual

/-- The text of a value inside a message. -/
def literal : Value → List Char
  | .null => "None".toList
  | .bool b => boolLiteral b
  | .int n => Decimal.intText n
  | .float x => Decimal.Layout.literal.text x
  | .str s => quotedText s
  | .decimal d => callText "Decimal" [quotedWith (fun _ => false) d.text]
  | .date d => d.literal
  | .dateTime t => t.literal
  | .uuid u => callText "UUID" [quotedWith (fun _ => false) u.text]
  | .bytes octets => quotedOctets octets
  | .foreign name _ _ => "<opaque ".toList ++ name.toList ++ ['>']
  | .list items _ => '[' :: commaSeparated (literals items) ++ [']']
  | .tuple [item] => '(' :: literal item ++ [',', ')']
  | .tuple items => '(' :: commaSeparated (literals items) ++ [')']
  | .dict entries _ => '\x7b' :: commaSeparated (entryLiterals entries) ++ ['\x7d']
  | .held (.dict entries _) =>
    shortened ('\x7b' :: commaSeparated (entryLiterals entries) ++ ['\x7d'])
  | .held contents => literal contents
  | .query name params =>
    callText (queryKind name) ((Entries.sortKeys (· < ·) (paramLiterals params)).map Prod.snd)
  | .scoreFunction name params =>
    callText (scoreFunctionKind name)
      ((Entries.sortKeys (· < ·) (paramLiterals params)).map Prod.snd)
  | .action a => a.literal
  | .operation act header body =>
    callText "BulkOperation"
      ["action=".toList ++ literal act, "meta=".toList ++ literal header,
        "body=".toList ++ literal body]
  | v => '<' :: v.kind.toList ++ ['>']

/-- The text of a key inside a message. -/
def keyLiteral : Key → List Char
  | .null => "None".toList
  | .bool b => boolLiteral b
  | .int n => Decimal.intText n
  | .float x => Decimal.Layout.literal.text x
  | .text s => quotedText s
  | .action a => a.literal
  | .object v => literal v

/-- The texts of items. -/
def literals : List Value → List (List Char)
  | [] => []
  | item :: items => literal item :: literals items

/-- The texts of entries, key and value. -/
def entryLiterals : List (Key × Value) → List (List Char)
  | [] => []
  | (key, v) :: entries => (keyLiteral key ++ ':' :: ' ' :: literal v) :: entryLiterals entries

/-- The texts of the parameters of an object, filed under their names. -/
def paramLiterals : List (Key × Value) → Entries String (List Char)
  | [] => []
  | (key, v) :: params =>
    (key.word, paramName key.word ++ '=' :: literal v) :: paramLiterals params

end

/-! ### Literals that cannot be written -/

/-- How many digits of an integer are converted to text. -/
def digitLimit : Nat := 4300

/-- The fault of writing an integer, if there is one. -/
def intFault? (n : Int) : Option Fault :=
  if digitLimit < (Decimal.digitsOf n.natAbs).length then some .badValue else none

mutual

/-- The first fault of writing the literal of a value, if there is one. -/
def literalFault? : Value → Option Fault
  | .int n => intFault? n
  | .foreign _ _ fault? => fault?
  | .list items _ => literalFaults? items
  | .tuple items => literalFaults? items
  | .dict entries _ => entryFaults? entries
  | .held contents => literalFault? contents
  | .query _ params => (Entries.sortKeys (· < ·) (paramFaults params)).findSome? Prod.snd
  | .scoreFunction _ params => (Entries.sortKeys (· < ·) (paramFaults params)).findSome? Prod.snd
  | .operation act header body =>
    ((literalFault? act).or (literalFault? header)).or (literalFault? body)
  | _ => none

/-- The first fault of writing the literal of a key. -/
def keyFault? : Key → Option Fault
  | .int n => intFault? n
  | .object v => literalFault? v
  | _ => none

/-- The first fault of writing the literals of items. -/
def literalFaults? : List Value → Option Fault
  | [] => none
  | item :: items => (literalFault? item).or (literalFaults? items)

/-- The first fault of writing the literals of entries, key and value. -/
def entryFaults? : List (Key × Value) → Option Fault
  | [] => none
  | (key, v) :: entries => ((keyFault? key).or (literalFault? v)).or (entryFaults? entries)

/-- The faults of writing the literals of parameters, filed under their names. -/
def paramFaults : List (Key × Value) → Entries String (Option Fault)
  | [] => []
  | (key, v) :: params => (key.word, literalFault? v) :: paramFaults params

end

/-- The text of a value inside a message, unless writing it fails. -/
def shown (v : Value) : Except Fault String :=
  match v.literalFault? with
  | some fault => .error fault
  | none => .ok (String.ofList v.literal)

/-- The text of a value that is used as a name. -/
def display : Value → String
  | .str s => s
  | .decimal d => String.ofList d.text
  | .date d => String.ofList d.iso
  | .dateTime t => String.ofList (t.text ' ')
  | .uuid u => String.ofList u.text
  | .action a => String.ofList a.constant
  | v => String.ofList v.literal

end Value

end SearchDsl
