import SearchDsl.Proofs.Contents
import SearchDsl.Proofs.Json.Writing
import SearchDsl.Serializer

/-!
# Plain data

Plain data (`Value.Plain`) is what JSON has: null, truth values, integers, texts, lists, and
dictionaries whose keys are texts.  There are no doubles in it.  It is written without
loss: the JSON data that stands for it (`Value.toJson?`), taken as a value again
(`Json.value`), has its contents (`Value.Plain.toJson?`).
-/

namespace SearchDsl

/-! ### JSON data as values -/

namespace Json

mutual

/-- JSON data as a value. -/
def value : Json → Value
  | .null => .null
  | .bool b => .bool b
  | .int n => .int n
  | .float x => .float x
  | .str s => .str s
  | .arr items => .list (itemValues items)
  | .obj fields => .dict (fieldValues fields)

/-- The items of an array as values. -/
def itemValues : List Json → List Value
  | [] => []
  | j :: items => j.value :: itemValues items

/-- The fields of an object as entries. -/
def fieldValues : List (String × Json) → List (Key × Value)
  | [] => []
  | (name, j) :: fields => (.text name, j.value) :: fieldValues fields

end

end Json

namespace Value

/-- Data that JSON has, without doubles. -/
inductive Plain : Value → Prop where
  | null : Plain .null
  | bool (b : Bool) : Plain (.bool b)
  | int (n : Int) : Plain (.int n)
  | str (s : String) : Plain (.str s)
  | list {items : List Value} (each : ∀ v ∈ items, Plain v) (i : Identity) : Plain (.list items i)
  | dict {es : Dict} (distinct : es.Distinct) (texts : es.Texts)
      (each : ∀ e ∈ es, Plain e.2) (i : Identity) : Plain (.dict es i)

theorem Plain.itemsToJson? {scalar : Value → Option Json} {items : List Value}
    (each : ∀ v ∈ items, ∃ j, v.toJson? scalar = some j ∧ j.Exact ∧ j.value = v.contents) :
  ∃ js, Value.itemsToJson? scalar items = some js ∧ (∀ j ∈ js, j.Exact) ∧
    Json.itemValues js = items.map contents
  := by
  induction items with
  | nil => exact ⟨[], rfl, by simp, rfl⟩
  | cons v items ih =>
    obtain ⟨j, hj, hexact, hvalue⟩ := each v List.mem_cons_self
    obtain ⟨js, hjs, hexacts, hvalues⟩ := ih fun w hw => each w (List.mem_cons_of_mem v hw)
    use j :: js
    constructor
    · rw [Value.itemsToJson?, hj, hjs]
      rfl
    · constructor
      · exact List.forall_mem_cons.2 ⟨hexact, hexacts⟩
      · rw [Json.itemValues, hvalue, hvalues, List.map_cons]

theorem Plain.entriesToJson? {scalar : Value → Option Json} {es : Dict}
    (texts : es.Texts)
    (each : ∀ e ∈ es, ∃ j, e.2.toJson? scalar = some j ∧ j.Exact ∧ j.value = e.2.contents) :
  ∃ fields, Value.entriesToJson? scalar es = some fields ∧ (∀ f ∈ fields, f.2.Exact) ∧
    Entries.names fields = es.names ∧
    Json.fieldValues fields = es.map fun e => (e.1.mapObject contents, e.2.contents)
  := by
  induction es with
  | nil => exact ⟨[], rfl, by simp, rfl, rfl⟩
  | cons e es ih =>
    obtain ⟨key, v⟩ := e
    obtain ⟨name, rfl⟩ := texts _ List.mem_cons_self
    obtain ⟨j, hj, hexact, hvalue⟩ := each _ List.mem_cons_self
    obtain ⟨fields, hfields, hexacts, hnames, hvalues⟩ :=
      ih (fun d hd => texts d (List.mem_cons_of_mem _ hd))
        fun d hd => each d (List.mem_cons_of_mem _ hd)
    use (name, j) :: fields
    constructor
    · rw [Value.entriesToJson?, hj, hfields]
      rfl
    · constructor
      · exact List.forall_mem_cons.2 ⟨hexact, hexacts⟩
      · constructor
        · rw [Entries.names_cons, Entries.names_cons, hnames]
          rfl
        · rw [Json.fieldValues, hvalue, hvalues, List.map_cons]
          rfl

/-- Plain data stands for JSON data without doubles, which holds all of it. -/
theorem Plain.toJson? {v : Value} (h : v.Plain) (scalar : Value → Option Json) :
  ∃ j, v.toJson? scalar = some j ∧ j.Exact ∧ j.value = v.contents
  := by
  induction h with
  | null => exact ⟨.null, rfl, .null, rfl⟩
  | bool b => exact ⟨.bool b, rfl, .bool b, rfl⟩
  | int n => exact ⟨.int n, rfl, .int n, rfl⟩
  | str s => exact ⟨.str s, rfl, .str s, rfl⟩
  | list each i ih =>
    obtain ⟨js, hjs, hexacts, hvalues⟩ := Plain.itemsToJson? ih
    use .arr js
    constructor
    · rw [Value.toJson?, hjs]
      rfl
    · constructor
      · apply Json.Exact.arr hexacts
      · rw [Json.value, hvalues, contents_list]
  | dict distinct texts each i ih =>
    obtain ⟨fields, hfields, hexacts, hnames, hvalues⟩ := Plain.entriesToJson? texts ih
    use .obj fields
    constructor
    · rw [Value.toJson?, hfields]
      rfl
    · constructor
      · apply Json.Exact.obj _ hexacts
        unfold Entries.Distinct
        rw [hnames]
        apply distinct
      · rw [Json.value, hvalues, contents_dict]

theorem Plain.copy {v : Value} (h : v.Plain) :
  v.copy.Plain
  := by
  induction h with
  | null => apply Plain.null
  | bool b => apply Plain.bool
  | int n => apply Plain.int
  | str s => apply Plain.str
  | list each i ih =>
    rw [copy_list]
    apply Plain.list
    rw [List.forall_mem_map]
    intro v hv
    apply ih v hv
  | @dict es distinct texts each i ih =>
    have halike := texts.copy_alike
    rw [copy_dict]
    apply Plain.dict
    · unfold Entries.Distinct
      rw [halike.names]
      apply distinct
    · apply texts.of_alike halike
    · rw [List.forall_mem_map]
      intro e he
      apply ih e he

end Value

end SearchDsl
