import SearchDsl.Proofs.Ndjson
import SearchDsl.Proofs.Ndjson.Regular

/-!
# Lines that are refused

The usual serializer refuses a value that is neither text nor octets exactly where something in
it has no notation: a value of a kind that it does not write, or a dictionary with a key that JSON
does not have (`Ndjson.line_refused_iff`).  It makes no difference how deep that stands, and the
refusal shows the whole value.  Values of the written kinds alone are not enough, since their keys
may be of any kind (`Ndjson.not_line_refused_iff`).

This is said of regular values.  Where a value that is refused cannot be shown, the fault is that of
showing it and no refusal (`Ndjson.line_of_literalFault?`).
-/

namespace SearchDsl

namespace Value

/-! ### What stands in a value -/

/-- The second value stands in the first one: as the value itself, in an item of a list or a tuple,
or in a value of a dictionary. -/
inductive Holds : Value → Value → Prop
  | self (v : Value) : Holds v v
  | ofList {items : List Value} {v w : Value} (hv : v ∈ items) (h : Holds v w) (i : Identity) :
      Holds (.list items i) w
  | ofTuple {items : List Value} {v w : Value} (hv : v ∈ items) (h : Holds v w) :
      Holds (.tuple items) w
  | ofDict {es : Dict} {e : Key × Value} {w : Value} (he : e ∈ es) (h : Holds e.2 w)
      (i : Identity) : Holds (.dict es i) w

/-- The value is of a kind that the usual serializer writes. -/
def HasNotation : Value → Prop
  | .null | .bool _ | .int _ | .float _ | .str _ | .action _ => True
  | .list _ _ | .tuple _ | .dict _ _ => True
  | .date _ | .dateTime _ | .uuid _ => True
  | .decimal (.notANumber _ signalling _) => signalling = false
  | .decimal _ => True
  | _ => False

/-- Where the value is a dictionary, its keys are texts, truth values, numbers or null. -/
def HasJsonKeys : Value → Prop
  | .dict es _ => ∀ e ∈ es, ∀ w, e.1 ≠ .object w
  | _ => True

/-- Everything in the value has a notation, and so have all keys. -/
def Encodable (v : Value) : Prop := ∀ w, v.Holds w → w.HasNotation ∧ w.HasJsonKeys

end Value

theorem Key.exists_written? {key : Key} (h : ∀ w, key ≠ .object w) :
  ∃ name, key.written? = some name
  := by
  cases key with
  | object w => exact absurd rfl (h w)
  | _ => exact ⟨_, rfl⟩

namespace Value

/-! ### Data that stands for no JSON data -/

variable {scalar : Value → Option Json}

theorem itemsToJson?_eq_none {items : List Value} {v : Value} (hv : v ∈ items)
    (h : v.toJson? scalar = none) :
  itemsToJson? scalar items = none
  := by
  induction hv with
  | head items => rw [itemsToJson?, h]; rfl
  | @tail w items hv ih =>
    rw [itemsToJson?, ih]
    cases w.toJson? scalar
    all_goals rfl

theorem entriesToJson?_eq_none {es : Dict} {e : Key × Value} (he : e ∈ es)
    (h : e.1.written? = none ∨ e.2.toJson? scalar = none) :
  entriesToJson? scalar es = none
  := by
  induction he with
  | head es =>
    obtain hkey | hvalue := h
    · rw [entriesToJson?, hkey]
      rfl
    · rw [entriesToJson?, hvalue]
      cases e.1.written?
      all_goals rfl
  | @tail d es he ih =>
    rw [entriesToJson?, ih]
    cases d.1.written?
    · rfl
    · cases d.2.toJson? scalar
      all_goals rfl

theorem exists_itemsToJson? {items : List Value}
    (each : ∀ v ∈ items, ∃ j, v.toJson? scalar = some j) :
  ∃ js, itemsToJson? scalar items = some js
  := by
  induction items with
  | nil => exact ⟨[], rfl⟩
  | cons v items ih =>
    obtain ⟨hv, hitems⟩ := List.forall_mem_cons.1 each
    obtain ⟨j, hj⟩ := hv
    obtain ⟨js, hjs⟩ := ih hitems
    use j :: js
    rw [itemsToJson?, hj, hjs]
    rfl

theorem exists_entriesToJson? {es : Dict}
    (each : ∀ e ∈ es, (∃ name, e.1.written? = some name) ∧ ∃ j, e.2.toJson? scalar = some j) :
  ∃ fields, entriesToJson? scalar es = some fields
  := by
  induction es with
  | nil => exact ⟨[], rfl⟩
  | cons e es ih =>
    obtain ⟨⟨⟨name, hname⟩, j, hj⟩, hes⟩ := List.forall_mem_cons.1 each
    obtain ⟨fields, hfields⟩ := ih hes
    use (name, j) :: fields
    rw [entriesToJson?, hname, hj, hfields]
    rfl

/-! ### Data that has a notation -/

/-- Where everything has a notation, there is JSON data. -/
theorem Encodable.exists_toJson? {v : Value} (h : v.Encodable) :
  ∃ j, v.toJson? converted? = some j
  := by
  cases v with
  | null | bool | int | float | str | action | date | dateTime | uuid => exact ⟨_, rfl⟩
  | decimal d =>
    cases d with
    | notANumber negative signalling payload =>
      obtain rfl : signalling = false := (h _ (.self _)).1
      exact ⟨_, rfl⟩
    | _ => exact ⟨_, rfl⟩
  | list items i =>
    obtain ⟨js, hjs⟩ := exists_itemsToJson? fun v hv =>
      Encodable.exists_toJson? fun w hw => h w (.ofList hv hw i)
    use .arr js
    rw [toJson?, hjs]
    rfl
  | tuple items =>
    obtain ⟨js, hjs⟩ := exists_itemsToJson? fun v hv =>
      Encodable.exists_toJson? fun w hw => h w (.ofTuple hv hw)
    use .arr js
    rw [toJson?, hjs]
    rfl
  | dict es i =>
    have hkeys := (h _ (.self _)).2
    have hvalues : ∀ e ∈ es, ∃ j, e.2.toJson? converted? = some j := by
      intro e he
      have hentry := sizeOf_entry_lt he
      have hsize : sizeOf e.2 < sizeOf (dict es i) := by
        rw [dict.sizeOf_spec es i]
        omega
      apply Encodable.exists_toJson? fun w hw => h w (.ofDict he hw i)
    obtain ⟨fields, hfields⟩ := exists_entriesToJson? fun e he =>
      ⟨Key.exists_written? (hkeys e he), hvalues e he⟩
    use .obj fields
    rw [toJson?, hfields]
    rfl
  | _ => exact (h _ (.self _)).1.elim
termination_by v

/-- A value without a notation has no JSON data, wherever it stands. -/
theorem Holds.toJson?_eq_none {v w : Value} (h : v.Holds w)
    (hw : ¬(w.HasNotation ∧ w.HasJsonKeys)) :
  v.toJson? converted? = none
  := by
  induction h with
  | self v =>
    cases v with
    | null | bool | int | float | str | action | date | dateTime | uuid | list | tuple =>
      exact absurd ⟨trivial, trivial⟩ hw
    | decimal d =>
      cases d with
      | notANumber negative signalling payload =>
        cases signalling with
        | false => exact absurd ⟨rfl, trivial⟩ hw
        | true => rfl
      | _ => exact absurd ⟨trivial, trivial⟩ hw
    | dict es i =>
      obtain ⟨e, he, k, hkey⟩ : ∃ e ∈ es, ∃ k, e.1 = .object k := by
        simpa [HasNotation, HasJsonKeys] using hw
      have hnone : e.1.written? = none := by
        rw [hkey]
        rfl
      rw [toJson?, entriesToJson?_eq_none he (.inl hnone)]
      rfl
    | _ => rfl
  | ofList hv _ _ ih => rw [toJson?, itemsToJson?_eq_none hv (ih hw)]; rfl
  | ofTuple hv _ ih => rw [toJson?, itemsToJson?_eq_none hv (ih hw)]; rfl
  | ofDict he _ _ ih => rw [toJson?, entriesToJson?_eq_none he (.inr (ih hw))]; rfl

end Value

namespace Ndjson

/-- A regular line that is neither text nor octets is refused if and only if something in it has no
notation, and otherwise it has a text. -/
theorem line_refused_iff {v : Value} (h : IsWritten v) (hregular : IsRegular v) :
  (line (.ofValue .null) v = .fail (.unwritable (String.ofList v.literal)) ↔
    ∃ w, v.Holds w ∧ ¬(w.HasNotation ∧ w.HasJsonKeys)) ∧
  ((∃ text, line (.ofValue .null) v = pure (.str text)) ↔
    ∀ w, v.Holds w → w.HasNotation ∧ w.HasJsonKeys)
  := by
  by_cases hv : v.Encodable
  · obtain ⟨j, hj⟩ := hv.exists_toJson?
    have hline : line (.ofValue .null) v = pure (.str j.compact) := line_of_toJson? h hj
    constructor
    · apply iff_of_false
      · intro hfail
        exact absurd (hfail.symm.trans hline) (Build.fail_ne_pure _ _)
      · rintro ⟨w, hw, hnot⟩
        apply hnot (hv w hw)
    · apply iff_of_true ⟨j.compact, hline⟩ hv
  · obtain ⟨w, hw, hnot⟩ : ∃ w, v.Holds w ∧ ¬(w.HasNotation ∧ w.HasJsonKeys) := by
      by_contra hnone
      apply hv
      intro w hw
      by_contra hnot
      apply hnone ⟨w, hw, hnot⟩
    have hrefused := line_of_toJson?_none h (hw.toJson?_eq_none hnot)
    have hfail : line (.ofValue .null) v = .fail (.unwritable (String.ofList v.literal)) := by
      rw [← hregular.refusal]
      apply hrefused
    constructor
    · apply iff_of_true hfail ⟨w, hw, hnot⟩
    · apply iff_of_false
      · rintro ⟨text, hline⟩
        exact absurd (hfail.symm.trans hline) (Build.fail_ne_pure _ _)
      · intro hall
        apply hnot (hall w hw)

/-- Octets deep in a line, under a key that is null. -/
theorem line_refused_of_octets :
  IsWritten (.dict [(.null, .tuple [.int 1, .list [.bytes [7]]])]) ∧
  IsRegular (.dict [(.null, .tuple [.int 1, .list [.bytes [7]]])]) ∧
  line (.ofValue .null) (.dict [(.null, .tuple [.int 1, .list [.bytes [7]]])]) =
    .fail (.unwritable "\x7bNone: (1, [b'\\x07'])\x7d")
  := by
  have hwritten : IsWritten (.dict [(.null, .tuple [.int 1, .list [.bytes [7]]])]) :=
    ⟨rfl, fun _ => nofun⟩
  have hregular : IsRegular (.dict [(.null, .tuple [.int 1, .list [.bytes [7]]])]) :=
    ⟨Value.shown_eq_ok_iff.1 rfl, rfl, nofun⟩
  use hwritten, hregular
  apply (line_refused_iff hwritten hregular).1.2
  use .bytes [7]
  constructor
  · apply Value.Holds.ofDict List.mem_cons_self
    apply Value.Holds.ofTuple (List.mem_cons_of_mem _ List.mem_cons_self)
    apply Value.Holds.ofList List.mem_cons_self
    apply Value.Holds.self
  · exact fun h => h.1

/-- A line in which every value is of a kind that is written may be refused even so: here the key is
a date. -/
theorem not_line_refused_iff :
  ¬∀ v, IsWritten v → IsRegular v →
    (line (.ofValue .null) v = .fail (.unwritable (String.ofList v.literal)) ↔
      ∃ w, v.Holds w ∧ ¬w.HasNotation)
  := by
  intro h
  have hregular : IsRegular (.dict [(.object (.date ⟨2024, 1, 2⟩), .int 1)]) :=
    ⟨Value.shown_eq_ok_iff.1 rfl, rfl, nofun⟩
  have hwritten : IsWritten (.dict [(.object (.date ⟨2024, 1, 2⟩), .int 1)]) := ⟨rfl, nofun⟩
  have hline := h _ hwritten hregular
  obtain ⟨w, hw, hnot⟩ := hline.1 rfl
  apply hnot
  cases hw with
  | self => trivial
  | ofDict he hw =>
    obtain rfl := List.mem_singleton.1 he
    cases hw
    trivial

/-- A line that is neither text nor octets and in which something has no notation is not refused
where it cannot be shown: it fails as showing it does. -/
theorem line_of_literalFault? {v w : Value} (h : IsWritten v) (hw : v.Holds w)
    (hnot : ¬(w.HasNotation ∧ w.HasJsonKeys)) {fault : Fault}
    (hfault : v.literalFault? = some fault) :
  line (.ofValue .null) v = .fail fault
  := by
  have hrefusal : refusal v = fault := by
    rw [refusal, Value.shown, hfault]
  rw [← hrefusal]
  apply line_of_toJson?_none h (hw.toJson?_eq_none hnot)

end Ndjson

end SearchDsl
