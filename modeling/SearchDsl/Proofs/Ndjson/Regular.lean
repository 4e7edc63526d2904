import SearchDsl.Ndjson
import SearchDsl.Proofs.Contents

/-!
# Values that can be shown

A value that cannot be encoded is shown in the message of the fault, and that may fail as well.
The literal of a value can be written exactly when everything that it shows can be shown: objects
that do not fail, and integers of no more digits than are converted to text
(`Value.shown_eq_ok_iff`).

What the lines of values are is said of regular values (`Ndjson.IsRegular`).  They can be shown,
nothing in them holds itself, and octets encode no half of a surrogate pair.
-/

namespace SearchDsl

namespace Value

/-! ### What a literal shows -/

/-- The values in a key. -/
def keyParts : Key → List Value
  | .object v => [v]
  | _ => []

/-- The values whose literals make up the literal of a value. -/
def shownParts : Value → List Value
  | .list items _ => items
  | .tuple items => items
  | .dict es _ => es.flatMap fun e => keyParts e.1 ++ [e.2]
  | .held contents => [contents]
  | .query _ params => params.map Prod.snd
  | .scoreFunction _ params => params.map Prod.snd
  | .operation act header body => [act, header, body]
  | _ => []

/-- The literal of the first value shows the second one, at any depth. -/
inductive Shows : Value → Value → Prop
  | self (v : Value) : Shows v v
  | part {v u w : Value} (hu : u ∈ v.shownParts) (h : Shows u w) : Shows v w

/-- The integer has no more digits than are converted to text. -/
def IsShort (n : Int) : Prop := (Decimal.digitsOf n.natAbs).length ≤ digitLimit

/-- The value is no object that fails to be shown and no integer that is too long, and has no such
integer for a key. -/
def CanBeShown : Value → Prop
  | .int n => IsShort n
  | .foreign _ _ fault? => fault? = none
  | .dict es _ => ∀ e ∈ es, ∀ n, e.1 = .int n → IsShort n
  | _ => True

theorem intFault?_eq_none {n : Int} :
  intFault? n = none ↔ IsShort n
  := by
  rw [intFault?, IsShort, ite_eq_right_iff]
  simp

theorem keyFault?_eq_none {key : Key} :
  keyFault? key = none ↔
    (∀ n, key = .int n → IsShort n) ∧ ∀ v ∈ keyParts key, v.literalFault? = none
  := by
  cases key with
  | int n => simp [keyFault?, keyParts, intFault?_eq_none]
  | object v => simp [keyFault?, keyParts]
  | _ => simp [keyFault?, keyParts]

theorem literalFaults?_eq_none {items : List Value} :
  literalFaults? items = none ↔ ∀ v ∈ items, v.literalFault? = none
  := by
  induction items with
  | nil => simp [literalFaults?]
  | cons v items ih => rw [literalFaults?, Option.or_eq_none_iff, ih, List.forall_mem_cons]

theorem entryFaults?_eq_none {es : Dict} :
  entryFaults? es = none ↔ ∀ e ∈ es, keyFault? e.1 = none ∧ e.2.literalFault? = none
  := by
  induction es with
  | nil => simp [entryFaults?]
  | cons e es ih =>
    obtain ⟨key, v⟩ := e
    rw [entryFaults?, Option.or_eq_none_iff, Option.or_eq_none_iff, ih, List.forall_mem_cons]

theorem paramFaults_eq_map (params : Dict) :
  paramFaults params = params.map fun e => (e.1.word, e.2.literalFault?)
  := by
  induction params with
  | nil => rfl
  | cons e params ih => rw [List.map_cons, ← ih, paramFaults]

/-- The order in which parameters are shown does not matter. -/
theorem findSome?_paramFaults_eq_none {params : Dict} :
  (Entries.sortKeys (· < ·) (paramFaults params)).findSome? Prod.snd = none ↔
    ∀ v ∈ params.map Prod.snd, v.literalFault? = none
  := by
  rw [List.findSome?_eq_none_iff]
  simp only [(Entries.perm_sortKeys _ _).mem_iff, paramFaults_eq_map, List.forall_mem_map]

/-- The literal of a value can be written where the value can be shown and those of its parts can be
written. -/
theorem literalFault?_eq_none_iff_parts {v : Value} :
  v.literalFault? = none ↔ v.CanBeShown ∧ ∀ u ∈ v.shownParts, u.literalFault? = none
  := by
  cases v with
  | int n => simp [literalFault?, CanBeShown, shownParts, intFault?_eq_none]
  | foreign name i fault? => simp [literalFault?, CanBeShown, shownParts]
  | list items i =>
    simp only [literalFault?, literalFaults?_eq_none, CanBeShown, shownParts, true_and]
  | tuple items =>
    simp only [literalFault?, literalFaults?_eq_none, CanBeShown, shownParts, true_and]
  | dict es i =>
    rw [literalFault?, entryFaults?_eq_none, CanBeShown, shownParts]
    simp only [keyFault?_eq_none, List.forall_mem_flatMap, List.forall_mem_append,
      List.forall_mem_singleton, ← forall₂_and, and_assoc]
  | held contents =>
    simp only [literalFault?, CanBeShown, shownParts, List.forall_mem_singleton, true_and]
  | query kind params =>
    simp only [literalFault?, findSome?_paramFaults_eq_none, CanBeShown, shownParts, true_and]
  | scoreFunction kind params =>
    simp only [literalFault?, findSome?_paramFaults_eq_none, CanBeShown, shownParts, true_and]
  | operation act header body =>
    simp [literalFault?, CanBeShown, shownParts, and_assoc]
  | _ => simp [literalFault?, CanBeShown, shownParts]

theorem sizeOf_lt_of_mem_keyParts {key : Key} {v : Value} (h : v ∈ keyParts key) :
  sizeOf v < sizeOf key
  := by
  cases key with
  | object w =>
    obtain rfl := List.mem_singleton.1 h
    simp
  | _ => cases h

theorem sizeOf_entry_lt {es : Dict} {e : Key × Value} (h : e ∈ es) :
  sizeOf e.1 + sizeOf e.2 < sizeOf es
  := by
  have hentry : sizeOf e < sizeOf es := List.sizeOf_lt_of_mem h
  have hparts : sizeOf e = 1 + sizeOf e.1 + sizeOf e.2 := by
    cases e
    rfl
  omega

theorem sizeOf_lt_of_mem_shownParts {u v : Value} (h : u ∈ v.shownParts) :
  sizeOf u < sizeOf v
  := by
  have hparam : ∀ params : Dict, u ∈ params.map Prod.snd → sizeOf u < sizeOf params := by
    intro params hu
    obtain ⟨e, he, rfl⟩ := List.mem_map.1 hu
    have hsize := sizeOf_entry_lt he
    omega
  cases v with
  | list items i =>
    have hsize : sizeOf u < sizeOf items := List.sizeOf_lt_of_mem h
    rw [list.sizeOf_spec items i]
    omega
  | tuple items =>
    have hsize : sizeOf u < sizeOf items := List.sizeOf_lt_of_mem h
    rw [tuple.sizeOf_spec]
    omega
  | dict es i =>
    obtain ⟨e, he, hu⟩ := List.mem_flatMap.1 h
    have hsize := sizeOf_entry_lt he
    rw [dict.sizeOf_spec es i]
    obtain hkey | hvalue := List.mem_append.1 hu
    · have hkeySize := sizeOf_lt_of_mem_keyParts hkey
      omega
    · obtain rfl := List.mem_singleton.1 hvalue
      omega
  | held contents =>
    obtain rfl := List.mem_singleton.1 h
    simp
  | query kind params =>
    have hsize := hparam params h
    rw [query.sizeOf_spec]
    omega
  | scoreFunction kind params =>
    have hsize := hparam params h
    rw [scoreFunction.sizeOf_spec]
    omega
  | operation act header body =>
    rw [operation.sizeOf_spec]
    obtain rfl | rfl | rfl : u = act ∨ u = header ∨ u = body := by simpa [shownParts] using h
    all_goals omega
  | _ => cases h

theorem literalFault?_of_canBeShown {v : Value} (h : ∀ w, v.Shows w → w.CanBeShown) :
  v.literalFault? = none
  := by
  rw [literalFault?_eq_none_iff_parts]
  constructor
  · apply h v (.self v)
  · intro u hu
    have hsize := sizeOf_lt_of_mem_shownParts hu
    apply literalFault?_of_canBeShown
    intro w hw
    apply h w (.part hu hw)
termination_by v

theorem Shows.canBeShown {v w : Value} (h : v.Shows w) (hnone : v.literalFault? = none) :
  w.CanBeShown
  := by
  induction h with
  | self v => apply (literalFault?_eq_none_iff_parts.1 hnone).1
  | part hu _ ih => apply ih ((literalFault?_eq_none_iff_parts.1 hnone).2 _ hu)

/-- A value has a text inside a message, which is its literal, exactly when everything that the
literal shows can be shown. -/
theorem shown_eq_ok_iff {v : Value} :
  v.shown = .ok (String.ofList v.literal) ↔ ∀ w, v.Shows w → w.CanBeShown
  := by
  rw [shown]
  cases hfault : v.literalFault? with
  | none => exact iff_of_true rfl fun w hw => hw.canBeShown hfault
  | some fault =>
    apply iff_of_false nofun
    intro h
    cases hfault.symm.trans (literalFault?_of_canBeShown h)

/-! ### What holds itself -/

end Value

/-- What has the identity is one of those with the given ones; what has just been made is none of
them. -/
def Identity.isAmong (outer : List Identity) : Identity → Bool
  | .new => false
  | identity => outer.contains identity

theorem Identity.copyOf_mem_copied {outer : List Identity} {i : Identity} (hi : i ≠ .new) :
  .copyOf i ∈ outer.map copied ↔ i ∈ outer
  := by
  rw [List.mem_map]
  constructor
  · rintro ⟨j, hj, heq⟩
    cases j with
    | new => cases heq
    | _ =>
      cases heq
      apply hj
  · intro hmem
    use i, hmem
    cases i with
    | new => exact absurd rfl hi
    | _ => rfl

theorem Identity.isAmong_iff {outer : List Identity} {i : Identity} (hi : i ≠ .new) :
  i.isAmong outer ↔ i ∈ outer
  := by
  cases i with
  | new => exact absurd rfl hi
  | _ => exact List.contains_iff_mem

theorem Identity.isAmong_copied (outer : List Identity) (i : Identity) :
  i.copied.isAmong (outer.map copied) = i.isAmong outer
  := by
  by_cases hi : i = .new
  · rw [hi]
    rfl
  · have hcopied : i.copied = .copyOf i := by
      cases i with
      | new => exact absurd rfl hi
      | _ => rfl
    have hcopy : Identity.copyOf i ≠ .new := nofun
    rw [Bool.eq_iff_iff, hcopied, isAmong_iff hcopy, isAmong_iff hi]
    apply copyOf_mem_copied hi

namespace Value

mutual

/-- A list or dictionary in the value is one of those with the given identities, which it stands in,
or stands in itself. -/
def recurs (outer : List Identity) : Value → Bool
  | .list items i => i.isAmong outer || recursAny (i :: outer) items
  | .tuple items => recursAny outer items
  | .dict es i => i.isAmong outer || recursEntry (i :: outer) es
  | _ => false

/-- One of the items does so. -/
def recursAny (outer : List Identity) : List Value → Bool
  | [] => false
  | item :: items => recurs outer item || recursAny outer items

/-- The value of one of the entries does so. -/
def recursEntry (outer : List Identity) : List (Key × Value) → Bool
  | [] => false
  | (_, v) :: es => recurs outer v || recursEntry outer es

end

/-- A list or dictionary in the value stands in itself.  The serializer refuses such a value; this is
not modelled, and the inner one is written as it was when it was put in. -/
def holdsItself (v : Value) : Bool := v.recurs []

mutual

theorem recurs_copy (outer : List Identity) : (v : Value) →
  recurs (outer.map Identity.copied) v.copy = recurs outer v
  | .list items i => by
    rw [copy_list, recurs, recurs, Identity.isAmong_copied, ← List.map_cons, recursAny_copy]
  | .tuple items => by
    rw [copy_tuple, recurs, recurs, recursAny_copy]
  | .dict es i => by
    rw [copy_dict, recurs, recurs, Identity.isAmong_copied, ← List.map_cons, recursEntry_copy]
  | .null | .bool _ | .int _ | .float _ | .str _ | .decimal _ | .date _ | .dateTime _ | .uuid _
  | .bytes _ | .foreign _ _ _ | .function _ _ _ _ | .held _ | .query _ _ | .scoreFunction _ _
  | .search _ _ | .encoding _ _ | .action _ | .operation _ _ _ | .clauses | .request _ _ _
  | .boolQuery _ _ | .aggregations _ _ _ | .suggestions _ _ | .indexConfig _ _ | .bulk _ _ _
  | .multiSearch _ _ _ => rfl

theorem recursAny_copy (outer : List Identity) : (items : List Value) →
  recursAny (outer.map Identity.copied) (items.map copy) = recursAny outer items
  | [] => rfl
  | v :: items => by
    rw [List.map_cons, recursAny, recursAny, recurs_copy, recursAny_copy]

theorem recursEntry_copy (outer : List Identity) : (es : List (Key × Value)) →
  recursEntry (outer.map Identity.copied) (es.map fun e => (e.1.mapObject copy, e.2.copy)) =
    recursEntry outer es
  | [] => rfl
  | (key, v) :: es => by
    rw [List.map_cons, recursEntry, recursEntry, recurs_copy, recursEntry_copy]

end

/-- A copy holds itself exactly where the value does. -/
theorem holdsItself_copy (v : Value) :
  v.copy.holdsItself = v.holdsItself
  := recurs_copy [] v

end Value

/-! ### Halves of pairs -/

/-- Octets encode half of a surrogate pair somewhere.  A text that holds such a half is not
modelled. -/
def holdsHalf : List UInt8 → Bool
  | a :: b :: c :: octets =>
    (a == 0xED && 0xA0 ≤ b && b ≤ 0xBF && 0x80 ≤ c && c ≤ 0xBF) || holdsHalf (b :: c :: octets)
  | _ => false

namespace Ndjson

/-! ### Regular values -/

/-- Everything that the literal of a value shows can be shown, nothing in the value holds itself, and
octets encode no half of a surrogate pair. -/
structure IsRegular (v : Value) : Prop where
  shown : ∀ w, v.Shows w → w.CanBeShown
  tree : v.holdsItself = false
  whole : ∀ octets, v = .bytes octets → holdsHalf octets = false

/-- A regular value is shown when it is refused. -/
theorem IsRegular.refusal {v : Value} (h : IsRegular v) :
  refusal v = .unwritable (String.ofList v.literal)
  := by
  rw [Ndjson.refusal, Value.shown_eq_ok_iff.2 h.shown]

end Ndjson

end SearchDsl
