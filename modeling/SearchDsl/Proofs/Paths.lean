import SearchDsl.Proofs.State
import SearchDsl.Script.Factory

/-!
# Paths through states

Reading and updating a state along a path of names obey the laws of a lens: what was put at the
end of a path is found there, nothing is changed off the path, and of two updates of one place the
second one counts (`State.update_lens`).  The reader and the writer treat what is missing or no
dictionary in different ways, yet they are a plain reader and a plain writer of values,
`Value.at?` and `Value.place`, of which both kinds of gaps are empty (`State.getIn_eq`,
`State.update_eq`).

Updates of places that are off each other's path make the same state in either order, except for
the order of the names in one dictionary (`Value.Reordered`).
-/

namespace SearchDsl

/-! ### Reading and writing without faults -/

namespace Value

/-- The entries of a dictionary; no other value has any. -/
def fields : Value → Dict
  | .dict es _ => es
  | _ => []

/-- The value at the end of a path of names, where there is one. -/
def at? : List String → Value → Option Value
  | [], old => some old
  | n :: ns, old => (old.fields.find? n).bind (at? ns)

/-- The value with `v` at the end of a path of names. -/
def place (v : Value) : List String → Value → Value
  | [], _ => v
  | n :: ns, old => .dict (old.fields.insert (.text n) (place v ns (old.fields.get n)))

/-- The value that holds `v` at the end of a path of names and nothing else. -/
def chain (v : Value) (ns : List String) : Value := ns.foldr (fun n w => .single n w) v

@[simp]
theorem fields_dict (es : Dict) (i : Identity) :
  (Value.dict es i).fields = es
  := rfl

theorem fields_of_not_isDict {v : Value} (h : ¬ v.IsDict) :
  v.fields = []
  := by
  cases v with
  | dict es i => exact absurd ⟨es, i, rfl⟩ h
  | _ => rfl

theorem fields_wayOf (v : Value) :
  (State.wayOf v).fields = v.fields
  := by
  cases v
  all_goals rfl

/-- Where a path goes on, what is no dictionary counts as an empty one. -/
theorem at?_wayOf (n : String) (ns : List String) (old : Value) :
  (State.wayOf old).at? (n :: ns) = old.at? (n :: ns)
  := by
  rw [at?, fields_wayOf, at?]

theorem place_wayOf (v : Value) (n : String) (ns : List String) (old : Value) :
  place v (n :: ns) (State.wayOf old) = place v (n :: ns) old
  := by
  rw [place, fields_wayOf, place]

/-- A name that is missing on the way counts as null. -/
theorem at?_cons (n m : String) (ns : List String) (old : Value) :
  old.at? (n :: m :: ns) = (old.fields.get n).at? (m :: ns)
  := by
  rw [at?, Entries.get]
  cases old.fields.find? n with
  | none => rfl
  | some child => rfl

theorem getD_at?_cons (n : String) (ns : List String) (old : Value) :
  (old.at? (n :: ns)).getD .null = ((old.fields.get n).at? ns).getD .null
  := by
  cases ns with
  | nil =>
    rw [at?, at?, Entries.get]
    cases old.fields.find? n with
    | none => rfl
    | some child => rfl
  | cons m ns => rw [at?_cons]

end Value

namespace Entries

theorem get_insert_self (n : String) (v : Value) (es : Dict) :
  Entries.get (es.insert (.text n) v) n = v
  := by
  rw [Entries.get, find?_insert_text, Option.getD_some]

theorem get_insert_of_ne {n m : String} (h : n ≠ m) (v : Value) (es : Dict) :
  Entries.get (es.insert (.text m) v) n = es.get n
  := by
  rw [Entries.get, find?_insert_text_of_ne h, Entries.get]

/-- What is found does not depend on which of two names is filed under first. -/
theorem find?_insert_insert {n m : String} (h : n ≠ m) (v w : Value) (es : Dict) (name : Name) :
  (Entries.insert (.text m) w (es.insert (.text n) v)).find? name =
    (Entries.insert (.text n) v (es.insert (.text m) w)).find? name
  := by
  by_cases hn : name = Name.text n
  · subst hn
    rw [find?_insert_text_of_ne h, find?_insert_text, find?_insert_text]
  · have hn' : name ≠ Named.name (Key.text n) := hn
    rw [find?_insert_of_ne hn']
    by_cases hm : name = Name.text m
    · subst hm
      rw [find?_insert_text, find?_insert_text]
    · have hm' : name ≠ Named.name (Key.text m) := hm
      rw [find?_insert_of_ne hm', find?_insert_of_ne hn', find?_insert_of_ne hm']

end Entries

/-! ### The laws of places -/

namespace Value

/-- Neither of two paths goes on where the other one ends. -/
def Diverge (ns ms : List String) : Prop := ¬ ns <+: ms ∧ ¬ ms <+: ns

theorem Diverge.symm {ns ms : List String} (h : Diverge ns ms) :
  Diverge ms ns
  := And.symm h

/-- Two paths that diverge do so at their first names or after a first name in common. -/
theorem Diverge.cases {ns ms : List String} (h : Diverge ns ms) :
  ∃ n ns' m ms', ns = n :: ns' ∧ ms = m :: ms' ∧ (n ≠ m ∨ n = m ∧ Diverge ns' ms')
  := by
  obtain ⟨hns, hms⟩ := h
  cases ns with
  | nil => exact absurd List.nil_prefix hns
  | cons n ns =>
    cases ms with
    | nil => exact absurd List.nil_prefix hms
    | cons m ms =>
      use n, ns, m, ms, rfl, rfl
      by_cases hnm : n = m
      · subst hnm
        right
        use rfl
        constructor
        · intro hprefix
          exact hns ((List.prefix_cons_inj n).2 hprefix)
        · intro hprefix
          exact hms ((List.prefix_cons_inj n).2 hprefix)
      · left
        exact hnm

/-- On the way of a path there is what is placed there at the end of the rest of it. -/
theorem at?_place_append (v : Value) (ms rest : List String) (old : Value) :
  (place v (ms ++ rest) old).at? ms = some (place v rest ((old.at? ms).getD .null))
  := by
  induction ms generalizing old with
  | nil => rfl
  | cons m ms ih =>
    rw [List.cons_append, place, at?, fields_dict, Entries.find?_insert_text, Option.bind_some, ih,
      getD_at?_cons]

theorem at?_place_self (v : Value) (ns : List String) (old : Value) :
  (place v ns old).at? ns = some v
  := by
  have h := at?_place_append v ns [] old
  rw [List.append_nil] at h
  apply h

/-- Nothing changes off the path. -/
theorem at?_place_of_diverge {ns ms : List String} (h : Diverge ns ms) (v old : Value) :
  (place v ns old).at? ms = old.at? ms
  := by
  induction ns generalizing ms old with
  | nil => exact absurd List.nil_prefix h.1
  | cons n ns ih =>
    obtain ⟨n', ns', m, ms, heq, rfl, hcases⟩ := h.cases
    obtain ⟨rfl, rfl⟩ := List.cons.inj heq
    obtain hne | ⟨rfl, hrest⟩ := hcases
    · rw [place, at?, fields_dict, Entries.find?_insert_text_of_ne (Ne.symm hne), at?]
    · obtain ⟨-, -, k, ks, -, rfl, -⟩ := hrest.cases
      rw [place, at?_cons, fields_dict, Entries.get_insert_self, ih hrest, at?_cons]

/-- The second of two values placed at the end of one path counts. -/
theorem place_place (v w : Value) (ns : List String) (old : Value) :
  place w ns (place v ns old) = place w ns old
  := by
  induction ns generalizing old with
  | nil => rfl
  | cons n ns ih =>
    rw [place, place, fields_dict, Entries.get_insert_self, ih, Entries.insert_insert_self, place]

theorem isDict_place {ns : List String} (h : ns ≠ []) (v old : Value) :
  (place v ns old).IsDict
  := by
  cases ns with
  | nil => exact absurd rfl h
  | cons n ns =>
    rw [place]
    exact ⟨_, _, rfl⟩

/-- Where there is no dictionary, the rest of the path is all that there will be. -/
theorem place_of_not_isDict {old : Value} (h : ¬ old.IsDict) (v : Value) (ns : List String) :
  place v ns old = chain v ns
  := by
  induction ns generalizing old with
  | nil => rfl
  | cons n ns ih =>
    have hnull : ¬ Value.IsDict .null := by
      rintro ⟨es, i, hes⟩
      cases hes
    rw [place, fields_of_not_isDict h]
    exact congrArg (Value.single n) (ih hnull)

/-! ### The order of places -/

/-- The same value but for the order of the keys in dictionaries. -/
inductive Reordered : Value → Value → Prop
  | refl (v : Value) : Reordered v v
  | dict {es ds : Dict} {i : Identity} (keys : (es.map Prod.fst).Perm (ds.map Prod.fst))
      (each : ∀ name v w, es.find? name = some v → ds.find? name = some w → Reordered v w) :
      Reordered (.dict es i) (.dict ds i)

/-- Filing under two names makes the same entries in either order, except for the order. -/
theorem reordered_insert_insert {n m : String} (h : n ≠ m) (v w : Value) (es : Dict) :
  Reordered (.dict (Entries.insert (.text m) w (es.insert (.text n) v)))
    (.dict (Entries.insert (.text n) v (es.insert (.text m) w)))
  := by
  have hname : Named.name (Key.text m) ≠ Named.name (Key.text n) := by
    intro heq
    exact h (Name.text.inj heq).symm
  apply Reordered.dict
  · apply (Entries.perm_insert_insert hname w v es).map
  · intro name a b ha hb
    rw [Entries.find?_insert_insert h, hb] at ha
    obtain rfl : b = a := Option.some.inj ha
    apply Reordered.refl

theorem reordered_insert (es : Dict) (n : String) {v w : Value} (h : Reordered v w) :
  Reordered (.dict (es.insert (.text n) v)) (.dict (es.insert (.text n) w))
  := by
  apply Reordered.dict
  · rw [Entries.keys_insert, Entries.keys_insert]
  · intro name a b ha hb
    by_cases hn : name = Name.text n
    · subst hn
      rw [Entries.find?_insert_text] at ha hb
      rw [← Option.some.inj ha, ← Option.some.inj hb]
      apply h
    · have hn' : name ≠ Named.name (Key.text n) := hn
      rw [Entries.find?_insert_of_ne hn'] at ha hb
      rw [hb] at ha
      rw [Option.some.inj ha]
      apply Reordered.refl

/-- Values placed off each other's path make the same value in either order. -/
theorem reordered_place_place {ns ms : List String} (h : Diverge ns ms) (v w old : Value) :
  Reordered (place w ms (place v ns old)) (place v ns (place w ms old))
  := by
  induction ns generalizing ms old with
  | nil => exact absurd List.nil_prefix h.1
  | cons n ns ih =>
    obtain ⟨n', ns', m, ms, heq, rfl, hcases⟩ := h.cases
    obtain ⟨rfl, rfl⟩ := List.cons.inj heq
    obtain hne | ⟨rfl, hrest⟩ := hcases
    · rw [place, place, place, place, fields_dict, fields_dict,
        Entries.get_insert_of_ne (Ne.symm hne), Entries.get_insert_of_ne hne]
      apply reordered_insert_insert hne
    · rw [place, place, place, place, fields_dict, fields_dict, Entries.get_insert_self,
        Entries.get_insert_self, Entries.insert_insert_self, Entries.insert_insert_self]
      apply reordered_insert _ _ (ih hrest _)

end Value

/-! ### Reading and updating states -/

namespace State

/-- A path: a list of names, or a text that is read as its characters. -/
inductive Path where
  | list (names : List String) (identity : Identity)
  | text (s : String)

/-- The path as it is given. -/
def Path.value : Path → Value
  | .list names i => .list (names.map .str) i
  | .text s => .str s

/-- The names along the path. -/
def Path.names : Path → List String
  | .list names _ => names
  | .text s => s.toList.map String.singleton

/-- The state with the value at the end of a path replaced by what `f` makes of it. -/
def update (f : Callback) (p : Path) (state : Value) : Build Value := do
  updateIn f (← Script.pathSteps p.value) state

/-- The state with `v` at the end of a path. -/
def assoc (p : Path) (v state : Value) : Build Value := do
  assocIn (← Script.pathSteps p.value) state v

theorem items_value (p : Path) :
  p.value.items = .ok (p.names.map .str)
  := by
  cases p with
  | list names i => rfl
  | text s =>
    rw [Path.value, Path.names, List.map_map]
    rfl

theorem pathSteps_value (p : Path) :
  Script.pathSteps p.value = .ok (p.names.map .str)
  := by
  rw [← items_value]
  cases p with
  | list names i => rfl
  | text s => rfl

/-- An association is an update that does not look at what was there. -/
theorem assoc_eq_update (p : Path) (v state : Value) :
  assoc p v state = update (fun _ => pure v) p state
  := rfl

theorem getAt_eq (default : Value) (ns : List String) (old : Value) :
  getAt default (ns.map .str) old = .ok ((old.at? ns).getD default)
  := by
  induction ns generalizing old with
  | nil => rfl
  | cons n ns ih =>
    cases old with
    | dict es i =>
      rw [Value.at?, Value.fields_dict, List.map_cons]
      cases hfind : Entries.find? n es with
      | none =>
        rw [Request.getAt_missing hfind]
        rfl
      | some child =>
        rw [Request.getAt_cons hfind, ih]
        rfl
    | _ => rfl

/-- What is read at the end of a path. -/
theorem getIn_eq (state : Value) (p : Path) (default : Value) :
  getIn state p.value default = .ok ((state.at? p.names).getD default)
  := by
  rw [getIn, items_value]
  apply getAt_eq

theorem updateIn_eq (f : Callback) {ns : List String} (h : ns ≠ []) (es : Dict) (i : Identity) :
  updateIn f (ns.map .str) (.dict es i) = do
    return Value.place (← f (((Value.dict es i).at? ns).getD .null)) ns (.dict es i)
  := by
  induction ns generalizing es i with
  | nil => exact absurd rfl h
  | cons n ns ih =>
    rw [Value.getD_at?_cons, Value.fields_dict]
    cases ns with
    | nil =>
      simp only [List.map_cons, List.map_nil, updateIn, Value.mapping_dict, Value.get_dict,
        Value.key_str, Build.liftM_ok, pure_bind, Value.place, Value.fields_dict, Value.at?,
        Option.getD_some]
      rfl
    | cons m ns =>
      have hway : ∃ ds j, State.wayOf (es.get n) = .dict ds j := by
        cases es.get n with
        | dict ds j => exact ⟨ds, j, rfl⟩
        | _ => exact ⟨[], .new, rfl⟩
      obtain ⟨ds, j, hway⟩ := hway
      have hchild := ih (List.cons_ne_nil m ns) ds j
      rw [← hway, Value.at?_wayOf] at hchild
      simp only [Value.place_wayOf] at hchild
      have hget : (es.find? n).getD .null = es.get n := rfl
      rw [List.map_cons] at hchild ⊢
      rw [List.map_cons, updateIn, Value.get_dict, pure_bind, hget, hchild]
      · simp only [Value.mapping_dict, Value.key_str, Build.liftM_ok, pure_bind, bind_assoc]
        rfl
      · intro heq
        cases heq

/-- An update places what `f` makes of what is read, with null for what is missing. -/
theorem update_eq (f : Callback) {p : Path} (h : p.names ≠ []) {state : Value}
    (hstate : state.IsDict) :
  update f p state = do
    return Value.place (← f ((state.at? p.names).getD .null)) p.names state
  := by
  obtain ⟨es, i, rfl⟩ := hstate
  rw [update, pathSteps_value, Build.liftM_ok, pure_bind, updateIn_eq f h]

/-! ### The laws of a lens -/

/-- On the way of a path, the keys are what they were, with a new one at the end, and where there
was no dictionary there is the rest of the path alone. -/
structure KeepsWay (ns : List String) (s t : Value) : Prop where
  keys : ∀ ms m rest, ns = ms ++ m :: rest →
    ∃ ds i, t.at? ms = some (.dict ds i) ∧
      ds.map Prod.fst =
        if .text m ∈ ((s.at? ms).getD .null).fields.names
        then ((s.at? ms).getD .null).fields.map Prod.fst
        else ((s.at? ms).getD .null).fields.map Prod.fst ++ [.text m]
  gaps : ∀ ms m rest, ns = ms ++ m :: rest → ¬ ((s.at? ms).getD .null).IsDict →
    ∃ v, t.at? ns = some v ∧ t.at? ms = some (v.chain (m :: rest))

theorem keepsWay_place (v : Value) (ns : List String) (s : Value) :
  KeepsWay ns s (Value.place v ns s)
  := by
  constructor
  · rintro ms m rest rfl
    rw [Value.at?_place_append, Value.place]
    exact ⟨_, _, rfl, Entries.keys_insert _ _ _⟩
  · rintro ms m rest rfl hgap
    use v, Value.at?_place_self v _ s
    rw [Value.at?_place_append, Value.place_of_not_isDict hgap]

section

variable {p : Path} {s : Value} (hp : p.names ≠ []) (hs : s.IsDict) (f g : Callback)

include hp hs

theorem succeeds_update (hf : ∀ v, Build.Succeeds (f v)) :
  Build.Succeeds (update f p s)
  := by
  rw [update_eq f hp hs]
  apply (hf _).bind
  intro v
  apply Build.Succeeds.pure

/-- What an update put at the end of its path is read there, whatever the default. -/
theorem getIn_update_self (default : Value) :
  (do getIn (← update f p s) p.value default) =
    (do f (← getIn s p.value .null))
  := by
  rw [update_eq f hp hs, getIn_eq, Build.liftM_ok, pure_bind]
  simp only [bind_assoc, pure_bind, getIn_eq, Value.at?_place_self, Build.liftM_ok,
    Option.getD_some]
  apply bind_pure

theorem getIn_update_of_diverge {q : Path} (h : Value.Diverge p.names q.names) (default : Value) :
  (do getIn (← update f p s) q.value default) =
    (do let _ ← update f p s; getIn s q.value default)
  := by
  rw [update_eq f hp hs]
  simp only [bind_assoc, pure_bind, getIn_eq, Value.at?_place_of_diverge h]

/-- Two updates along one path are one. -/
theorem update_update :
  (do update g p (← update f p s)) = update (fun v => do g (← f v)) p s
  := by
  rw [update_eq f hp hs, update_eq _ hp hs]
  simp only [bind_assoc, pure_bind]
  congr 1
  funext v
  rw [update_eq g hp (Value.isDict_place hp v s), Value.at?_place_self]
  simp only [Option.getD_some, Value.place_place]

theorem assoc_assoc (v w : Value) :
  (do assoc p w (← assoc p v s)) = assoc p w s
  := by
  simp only [assoc_eq_update, update_update hp hs, pure_bind]

/-- An update and then one off its path are made of what was read before both. -/
theorem update_update_of_diverge {q : Path} (hq : q.names ≠ [])
    (h : Value.Diverge p.names q.names) :
  (do update g q (← update f p s)) = (do
    let v ← f (← getIn s p.value .null)
    let w ← g (← getIn s q.value .null)
    return Value.place w q.names (Value.place v p.names s))
  := by
  rw [update_eq f hp hs]
  simp only [getIn_eq, Build.liftM_ok, bind_assoc, pure_bind]
  congr 1
  funext v
  rw [update_eq g hq (Value.isDict_place hp v s), Value.at?_place_of_diverge h]

theorem yields_keepsWay :
  Build.Yields (KeepsWay p.names s) (update f p s)
  := by
  rw [update_eq f hp hs]
  apply Build.Yields.bind
  intro v
  apply Build.Yields.pure
  apply keepsWay_place

end

/-- The laws of reading and updating along the path `p`, for a state and two functions: an update
has a result where the function has one; what is read at the end of the path is what the function
made of what was there; whatever is read off the path is as it was; two updates are one update with
one function after the other, and of two associations the second one counts; updates of places that
are off each other's path make the same state in either order, except for the order of names; and
the dictionaries on the way keep their keys in order. -/
theorem update_lens {p : Path} (hp : p.names ≠ []) {s : Value} (hs : s.IsDict) (f g : Callback) :
  ((∀ v, Build.Succeeds (f v)) → Build.Succeeds (update f p s)) ∧
    (∀ default, (do getIn (← update f p s) p.value default) =
      (do f (← getIn s p.value .null))) ∧
    (∀ q : Path, Value.Diverge p.names q.names → ∀ default,
      (do getIn (← update f p s) q.value default) =
        (do let _ ← update f p s; getIn s q.value default)) ∧
    (do update g p (← update f p s)) = update (fun v => do g (← f v)) p s ∧
    (∀ v w, (do assoc p w (← assoc p v s)) = assoc p w s) ∧
    (∀ q : Path, Value.Diverge p.names q.names → ∃ first second : Value → Value → Value,
      (do update g q (← update f p s)) = (do
        let v ← f (← getIn s p.value .null)
        let w ← g (← getIn s q.value .null)
        return first v w) ∧
      (do update f p (← update g q s)) = (do
        let w ← g (← getIn s q.value .null)
        let v ← f (← getIn s p.value .null)
        return second v w) ∧
      ∀ v w, (first v w).Reordered (second v w)) ∧
    Build.Yields (KeepsWay p.names s) (update f p s)
  := by
  constructor
  · apply succeeds_update hp hs f
  constructor
  · apply getIn_update_self hp hs f
  constructor
  · intro q h default
    apply getIn_update_of_diverge hp hs f h
  constructor
  · apply update_update hp hs
  constructor
  · apply assoc_assoc hp hs
  constructor
  · intro q h
    obtain ⟨-, -, m, ms, -, hms, -⟩ := h.cases
    have hq : q.names ≠ [] := by
      rw [hms]
      apply List.cons_ne_nil
    use fun v w => Value.place w q.names (Value.place v p.names s)
    use fun v w => Value.place v p.names (Value.place w q.names s)
    use update_update_of_diverge hp hs f g hq h
    use update_update_of_diverge hq hs g f hp h.symm
    intro v w
    apply Value.reordered_place_place h
  · apply yields_keepsWay hp hs

/-- Through a number, and with the characters of a text as the names: the number gives way to a
dictionary with the rest of the path, and what is beside it stays. -/
theorem update_through_number :
  Path.names (.text "ab") ≠ [] ∧ Value.IsDict (.dict [("a", .int 1), ("z", .int 2)]) ∧
    (do
      let t ← update (fun v => pure (.list [v])) (.text "ab")
        (.dict [("a", .int 1), ("z", .int 2)])
      getIn t (Path.text "ab").value (.int 0)) = pure (.list [.null])
  := by
  have hp : Path.names (.text "ab") ≠ [] := by decide
  have hs : Value.IsDict (.dict [("a", .int 1), ("z", .int 2)]) := ⟨_, _, rfl⟩
  use hp, hs
  apply (update_lens hp hs (fun v => pure (.list [v])) pure).2.1

end State

end SearchDsl
