import SearchDsl.Proofs.Entries
import SearchDsl.Value.View

/-!
# Views of dictionaries

What the views of a value are when the value is a dictionary, and what is found in it where values
are filed under texts.  No view of entries calls anything then: a recognised option is either an
entry as it was given or left out.  No key but a text and an action files under the name of a text
(`Key.eq_of_name_text`).
-/

namespace SearchDsl

/-! ### Keys that are texts -/

namespace Name

theorem ofDecimal_ne_text (negative : Bool) (c : Nat) (e : Int) (s : String) :
  ofDecimal negative c e ≠ .text s
  := nofun

theorem ofFloat_ne_text (x : Float) (s : String) :
  ofFloat x ≠ .text s
  := by
  unfold ofFloat
  split
  · apply ofDecimal_ne_text
  · exact nofun
  · exact nofun

end Name

theorem Value.name_ne_text (v : Value) (s : String) :
  v.name ≠ .text s
  := by
  unfold Value.name
  split
  · apply Name.ofDecimal_ne_text
  · exact nofun
  · exact nofun
  · exact nofun

/-- A key that files under a text is the text, or an action of which it is the word. -/
theorem Key.eq_of_name_text {key : Key} {s : String} (h : Named.name key = Name.text s) :
  key = .text s ∨ ∃ a : Action, key = .action a ∧ a.word = s
  := by
  cases key with
  | text t =>
    left
    apply congrArg Key.text (Name.text.inj h)
  | action a =>
    right
    use a, rfl, Name.text.inj h
  | float x => exact absurd h (Name.ofFloat_ne_text x s)
  | object v => exact absurd h (v.name_ne_text s)
  | _ => cases h

/-! ### Entries under texts -/

namespace Entries

theorem find?_insert_text (name : String) (v : Value) (es : Dict) :
  (es.insert (.text name) v).find? name = some v
  := find?_insert_self (Key.text name) v es

theorem find?_insert_text_of_ne {name other : String} (h : name ≠ other) (v : Value) (es : Dict) :
  (es.insert (.text other) v).find? name = es.find? name
  := by
  have hname : Name.text name ≠ Named.name (Key.text other) := by
    intro heq
    apply h (Name.text.inj heq)
  apply find?_insert_of_ne hname

/-- The entry of a name, unless it is null. -/
def present (es : Dict) (name : String) : Dict :=
  match es.find? name with
  | some v => if v.isNull then [] else [(.text name, v)]
  | none => []

/-- The entries of some names come in the order of the names, and no name comes twice. -/
theorem names_flatMap_present (es : Dict) (ns : List String) :
  (Entries.names (ns.flatMap es.present)).Sublist (ns.map Name.text)
  := by
  induction ns with
  | nil => apply List.Sublist.refl
  | cons name ns ih =>
    rw [List.flatMap_cons, names_append, List.map_cons]
    unfold present
    split
    · split
      · apply List.Sublist.cons _ ih
      · apply List.Sublist.cons_cons _ ih
    · apply List.Sublist.cons _ ih

theorem present_eq (es : Dict) (name : String) :
  es.present name =
    ((es.find? name).filter fun v => !v.isNull).toList.map fun v => (.text name, v)
  := by
  unfold present
  cases es.find? name with
  | none => rfl
  | some v =>
    cases hv : v.isNull
    · simp [Option.filter_some, hv]
    · simp [Option.filter_some, hv]

theorem mem_present_iff {es : Dict} {name : String} {e : Key × Value} :
  e ∈ es.present name ↔ e.1 = .text name ∧ es.find? name = some e.2 ∧ e.2.isNull = false
  := by
  rw [present_eq, List.mem_map]
  simp only [Option.mem_toList, Option.filter_eq_some_iff, Bool.not_eq_true']
  constructor
  · rintro ⟨v, hv, rfl⟩
    exact ⟨rfl, hv⟩
  · rintro ⟨hkey, hv⟩
    use e.2, hv
    rw [← hkey]

theorem mem_present {es : Dict} {name : String} {e : Key × Value} (h : e ∈ es.present name) :
  e.1 = .text name ∧ es.find? name = some e.2
  := by
  obtain ⟨hkey, hfound, -⟩ := mem_present_iff.1 h
  exact ⟨hkey, hfound⟩

end Entries

/-! ### Views -/

namespace Value

@[simp]
theorem mapping_dict (es : Dict) (i : Identity) :
  (Value.dict es i).mapping = .ok es
  := rfl

@[simp]
theorem key_str (s : String) :
  (Value.str s).key = .ok (.text s)
  := rfl

/-- Options are merged into a payload where they are a dictionary or false as a condition. -/
theorem withOptions_eq_ok_iff {start : Dict} {options payload : Value} :
  withOptions start options = .ok payload ↔
    ∃ os, options.orEmpty.mapping = .ok os ∧ .dict (start.merge os) = payload
  := by
  rw [withOptions, extend]
  cases options.orEmpty.mapping with
  | error fault =>
    constructor
    · intro h
      cases h
    · rintro ⟨os, hos, -⟩
      cases hos
  | ok es =>
    constructor
    · intro h
      exact ⟨es, rfl, Except.ok.inj h⟩
    · rintro ⟨os, hos, rfl⟩
      rw [Except.ok.inj hos]
      rfl

theorem withOptions_of_mapping {options : Value} {os : Dict} (h : options.orEmpty.mapping = .ok os)
    (start : Dict) :
  withOptions start options = .ok (.dict (start.merge os))
  := withOptions_eq_ok_iff.2 ⟨os, h, rfl⟩

theorem orEmpty_dict (es : Dict) :
  (Value.dict es).orEmpty = .dict es
  := by
  cases es with
  | nil => rfl
  | cons e es => rfl

theorem orEmpty_orEmpty (v : Value) :
  v.orEmpty.orEmpty = v.orEmpty
  := by
  unfold orEmpty orElse
  cases h : v.truthy with
  | true => rw [if_pos rfl, if_pos h]
  | false => rfl

theorem get_dict_of_key {key : Value} {k : Key} (h : key.key = .ok k) (es : Dict) (i : Identity) :
  (Value.dict es i).get key = pure ((es.find? (Named.name k)).getD .null)
  := by
  simp only [get, h, Build.liftM_ok, pure_bind]
  rfl

theorem entryAt_dict {es : Dict} {name : String} {v : Value} (h : es.find? name = some v)
    (i : Identity) :
  (Value.dict es i).entryAt (.str name) = .ok v
  := by
  change entryAt.found (es.find? name) = .ok v
  rw [h]
  rfl

theorem whenPresent_dict (es : Dict) (i : Identity) (name : String) :
  (Value.dict es i).whenPresent name = pure (es.present name)
  := by
  rw [whenPresent, get_dict, pure_bind, Entries.present]
  cases h : es.find? name with
  | none => rfl
  | some v =>
    simp only [Option.getD_some]
    split
    · rfl
    · rw [entryAt_dict h]
      rfl

end Value

end SearchDsl
