/-!
# JSON data

`Json` is JSON data whose objects keep the order of their fields, and in which integers
of any size and doubles are different numbers.
-/

namespace SearchDsl

/-- JSON data with ordered objects. -/
inductive Json where
  | null
  | bool (b : Bool)
  | int (n : Int)
  | float (x : Float)
  | str (s : String)
  | arr (items : List Json)
  | obj (fields : List (String × Json))

end SearchDsl
