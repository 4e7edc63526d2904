import SearchDsl.Calendar.Basic
import SearchDsl.Decimal.Exact
import SearchDsl.Entries
import SearchDsl.Fault
import SearchDsl.Script.Expr
import SearchDsl.Text.Hex

/-!
# Values

A `Value` is whatever may be handed to an operation or stored in a request.  Arguments
are not validated when a request is composed, so the type holds more than JSON data:
scalars of other kinds, functions, the objects of this library, and objects it knows
nothing about.  An object of this library is represented by its state, and a function by
its body and, when it was made by a call of another function, by what the names in that
call denote.

Lists and dictionaries can be changed in place, and then change wherever they are held.
Each has an `Identity` beside its contents, which tells it apart from others with the same
contents; what an operation makes is new.  So does an object that is the same as nothing but
itself, such as a function or a request.

The keys of a dictionary are texts as a rule, but an operation may file under any value
that does not change, such as the action of a bulk operation, a number or a date.  What
keys file under is said in `SearchDsl.Key`.

Every value is true or false as a condition (`Value.truthy`) and has the name of its kind
(`Value.kind`).
-/

namespace SearchDsl

/-- What a bulk operation does to its document. -/
inductive Action where
  | index
  | create
  | update
  | delete
  deriving DecidableEq

/-- The word for an action in a request. -/
def Action.word : Action → String
  | .index => "index"
  | .create => "create"
  | .update => "update"
  | .delete => "delete"

/-- The action with the given word. -/
def Action.ofWord? (word : String) : Option Action :=
  [Action.index, .create, .update, .delete].find? fun a => a.word == word

/-- How the lines of a payload are encoded. -/
inductive Encoding where
  /-- Without blanks, text as it is, with calendar and decimal values converted. -/
  | compact
  /-- With sorted names and blanks after the marks, in ASCII, for plain data alone. -/
  | sorted
  /-- Every line is refused for the same cause. -/
  | refusing (cause : Fault)

/-- The number of what a script makes: in how many calls of functions it is made, and its place in
the order of what is made there. -/
structure Serial where
  depth : Nat
  place : Nat
  deriving DecidableEq

/-- The numbers of what is made in no call. -/
instance (n : Nat) : OfNat Serial n := ⟨⟨0, n⟩⟩

/-- Which one a list, a dictionary or an object is. -/
inductive Identity where
  /-- One that has just been made, and that nothing else holds. -/
  | new
  /-- The one of the given number. -/
  | known (number : Serial)
  /-- The copy of one, made together with copies of all that holds it. -/
  | copyOf (other : Identity)
  deriving DecidableEq

mutual

/-- What a dictionary files a value under. -/
inductive Key where
  | null
  | bool (b : Bool)
  | int (n : Int)
  | float (x : Float)
  | text (s : String)
  | action (a : Action)
  /-- A value of another kind; JSON has no such keys. -/
  | object (v : Value)

/-- What may be handed to an operation or stored in a request. -/
inductive Value where
  | null
  | bool (b : Bool)
  | int (n : Int)
  | float (x : Float)
  | str (s : String)
  | decimal (d : Decimal.Exact)
  | date (d : Date)
  | dateTime (t : DateTime)
  | uuid (u : Uuid)
  | bytes (octets : List UInt8)
  /-- An object of no known kind; asking for its literal fails where a fault is given. -/
  | foreign (name : String) (identity : Identity := .new) (fault? : Option Fault := none)
  /-- A function of one parameter; `scope` says what the other names in its body denote, and
  without it they denote what the script gives them at the time of the call. -/
  | function (param : String) (body : Script.Expr) (scope : Option (List (String × Value)))
    (identity : Identity := .new)
  | list (items : List Value) (identity : Identity := .new)
  | tuple (items : List Value)
  | dict (entries : List (Key × Value)) (identity : Identity := .new)
  /-- A dictionary or a list as a query object hands it out.  It answers for its entries under
  their names, and is itself neither a dictionary nor a list. -/
  | held (contents : Value)
  /-- A query object of the search library; the parts that it holds are objects. -/
  | query (name : String) (params : List (Key × Value))
  /-- A score function of a query object. -/
  | scoreFunction (name : String) (params : List (Key × Value))
  /-- A search object of the search library: the parts of its body, and the names of its
  indices. -/
  | search (parts : List (Key × Value)) (indices : Option (List Value))
  | encoding (e : Encoding) (identity : Identity := .new)
  | action (a : Action)
  /-- A bulk operation. -/
  | operation (action header body : Value)
  /-- The factory of query clauses. -/
  | clauses
  /-- The body of a search request; its query is built only when `withQuery` is set. -/
  | request (state : Value) (withQuery : Bool) (identity : Identity := .new)
  /-- A boolean query; `state` is its payload. -/
  | boolQuery (state : Value) (identity : Identity := .new)
  /-- Named aggregations; `last` is the name added last, or null. -/
  | aggregations (nodes last : Value) (identity : Identity := .new)
  /-- Named suggestions. -/
  | suggestions (state : Value) (identity : Identity := .new)
  /-- An index configuration. -/
  | indexConfig (state : Value) (identity : Identity := .new)
  /-- Bulk operations and the encoding of their lines. -/
  | bulk (operations : List Value) (encoding : Value) (identity : Identity := .new)
  /-- Searches and the encoding of their lines. -/
  | multiSearch (searches : List Value) (encoding : Value) (identity : Identity := .new)

end

instance : Coe String Key := ⟨Key.text⟩

/-- The entries of a dictionary. -/
abbrev Dict := Entries Key Value

/-- A key as a value. -/
def Key.toValue : Key → Value
  | .null => .null
  | .bool b => .bool b
  | .int n => .int n
  | .float x => .float x
  | .text s => .str s
  | .action a => .action a
  | .object v => v

/-- The text that a key is or stands for; other keys have none. -/
def Key.word : Key → String
  | .text s => s
  | .action a => a.word
  | _ => ""

namespace Value

/-- The dictionary with one entry. -/
def single (key : Key) (v : Value) : Value := .dict [(key, v)]

/-- The empty dictionary. -/
def empty : Value := .dict []

/-- A value as a condition: null, false, zeros and empty containers are false. -/
def truthy : Value → Bool
  | .null => false
  | .bool b => b
  | .int n => n != 0
  | .float x => !(x == 0.0)
  | .str s => s != ""
  | .decimal d => !d.isZero
  | .bytes octets => !octets.isEmpty
  | .list items _ => !items.isEmpty
  | .tuple items => !items.isEmpty
  | .dict entries _ => !entries.isEmpty
  | .held contents => contents.truthy
  | _ => true

/-- The value itself where it is true as a condition, and `other` where it is not. -/
def orElse (v other : Value) : Value := if v.truthy then v else other

/-- The value itself where it is true as a condition, and the empty dictionary where it is not. -/
def orEmpty (v : Value) : Value := v.orElse empty

/-- The value is null. -/
def isNull : Value → Bool
  | .null => true
  | _ => false

/-- The text that a value is or stands for. -/
def text? : Value → Option String
  | .str s => some s
  | .action a => some a.word
  | _ => none

/-! ### Kinds -/

/-- A word with its first letter in upper case. -/
def capitalized (s : List Char) : List Char :=
  match s with
  | [] => []
  | c :: cs => c.toUpper :: cs

/-- The words between the underscores. -/
def splitWords : List Char → List (List Char)
  | [] => [[]]
  | c :: cs =>
    match splitWords cs with
    | [] => [[c]]
    | word :: words => if c = '_' then [] :: word :: words else (c :: word) :: words

/-- The kind of the query objects with the given name: its words, capitalised and joined. -/
def queryKind (name : String) : String :=
  String.ofList ((splitWords name.toList).flatMap capitalized)

/-- The kind of the score functions with the given name. -/
def scoreFunctionKind (name : String) : String :=
  if name = "field_value_factor" then "FieldValueFactorScore" else queryKind name

/-- The name of the kind of a value. -/
def kind : Value → String
  | .null => "NoneType"
  | .bool _ => "bool"
  | .int _ => "int"
  | .float _ => "float"
  | .str _ => "str"
  | .decimal _ => "Decimal"
  | .date _ => "date"
  | .dateTime _ => "datetime"
  | .uuid _ => "UUID"
  | .bytes _ => "bytes"
  | .foreign _ _ _ => "Opaque"
  | .function _ _ _ _ => "function"
  | .list _ _ => "list"
  | .tuple _ => "tuple"
  | .dict _ _ => "dict"
  | .held (.list _ _) => "AttrList"
  | .held _ => "AttrDict"
  | .query name _ => queryKind name
  | .scoreFunction name _ => scoreFunctionKind name
  | .search _ _ => "Search"
  | .encoding _ _ => "JsonSerializer"
  | .action _ => "BulkAction"
  | .operation _ _ _ => "BulkOperation"
  | .clauses => "ClauseBuilder"
  | .request _ _ _ => "QueryBuilder"
  | .boolQuery _ _ => "BoolBuilder"
  | .aggregations _ _ _ => "AggregationBuilder"
  | .suggestions _ _ => "SuggesterBuilder"
  | .indexConfig _ _ => "IndexBuilder"
  | .bulk _ _ _ => "BulkBuilder"
  | .multiSearch _ _ _ => "MSearchBuilder"

end Value

end SearchDsl
