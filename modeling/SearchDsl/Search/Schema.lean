import SearchDsl.Key

/-!
# Schemas of parts

A search consists of parts: queries, aggregations and score functions.  A part is of a
kind, and the `Schema` of a kind says which of its parameters have a place of their own
when the part is written and which of them hold other parts, each in a `Role`.
-/

namespace SearchDsl

namespace Search

/-- The parts of a search that come in kinds. -/
inductive Part where
  | query
  | aggregation
  | scoreFunction
  deriving DecidableEq

/-- How a value holds parts. -/
inductive Role where
  /-- Not at all. -/
  | plain
  /-- Not at all; octets and other sequences than texts become lists. -/
  | sequence
  | one (p : Part)
  /-- A list of parts; a single part stands for the list of it. -/
  | many (p : Part)
  /-- Parts filed under names. -/
  | named (p : Part)
  /-- The parameters of a score function of the given kind. -/
  | function (kind : String)
  deriving DecidableEq

/-- The parameters of the parts of one kind. -/
structure Schema where
  /-- The parameters with a place of their own, in order. -/
  places : List String
  /-- The parameters that hold other parts. -/
  roles : List (String × Role)
  /-- The role of the other parameters. -/
  rest : Role

/-- The role of a parameter. -/
def Schema.role (s : Schema) (name : String) : Role := (Entries.find? name s.roles).getD s.rest

/-- The parameters with a place of their own in that order, and the others after them. -/
def Schema.place {α : Type} (s : Schema) (params : Entries Key α) : Entries Key α :=
  let names : List Name := s.places.map .text
  params.select names ++ params.erase names

end Search

end SearchDsl
