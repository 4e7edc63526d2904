import SearchDsl.Proofs.View
import SearchDsl.State

/-!
# Merging states

States form an algebra under merging (`State.merging_laws`).  Merging is associative, the empty
state is neutral, and a state merged with itself is that state; leaving keys out goes through
merging, and leaving keys out twice is leaving all of them out.  All of these are equations of
dictionaries with the order of their entries.

Appending items one after the other makes one list of them (`State.appendAll_eq`), which stands
where the key stood.  What is done to other keys may be done before or after, except that the
entries may come in another order (`State.SameButOrder`).
-/

namespace SearchDsl

namespace State

theorem namesOf_append (ks ls : List Value) :
  namesOf (ks ++ ls) = namesOf ks ++ namesOf ls
  := by
  rw [namesOf, List.filterMap_append, List.map_append, namesOf, namesOf]

/-! ### Appending -/

/-- What counts as a list of items under a key: a list, or nothing or a value that is false as a
condition, in which there are no items. -/
inductive CountsAs : Option Value → List Value → Prop
  | missing : CountsAs none []
  | falsy {v : Value} (h : v.truthy = false) : CountsAs (some v) []
  | list (items : List Value) (i : Identity) : CountsAs (some (.list items i)) items

theorem CountsAs.items {found : Option Value} {items : List Value} (h : CountsAs found items) :
  ((found.getD .null).orElse (.list [])).items = .ok items
  := by
  cases h with
  | missing => rfl
  | falsy h =>
    rw [Option.getD_some, Value.orElse, h]
    rfl
  | list items i =>
    cases items with
    | nil => rfl
    | cons item items => rfl

variable {key : Value} {k : Key} {es : Dict} {old : List Value}

theorem append_eq (hk : key.key = .ok k) (h : CountsAs (es.find? (Named.name k)) old)
    (i : Identity) (item : Value) :
  append (.dict es i) key item = pure (.dict (es.insert k (.list (old ++ [item]))))
  := by
  rw [append, Value.get_dict_of_key hk]
  simp only [Value.mapping_dict, h.items, hk, Build.liftM_ok, pure_bind]

/-- The state after some items are appended under a key, one after the other. -/
def appendAll (key : Value) (items : List Value) (state : Value) : Build Value :=
  items.foldlM (fun s item => append s key item) state

/-- Items that are appended one after the other come after those that were there. -/
theorem appendAll_eq (hk : key.key = .ok k) (h : CountsAs (es.find? (Named.name k)) old)
    (i : Identity) (item : Value) (items : List Value) :
  appendAll key (item :: items) (.dict es i) =
    pure (.dict (es.insert k (.list (old ++ item :: items))))
  := by
  induction items generalizing es i old item with
  | nil =>
    rw [appendAll, List.foldlM_cons, append_eq hk h, pure_bind]
    rfl
  | cons next items ih =>
    have hnext : CountsAs ((es.insert k (.list (old ++ [item]))).find? (Named.name k))
        (old ++ [item]) := by
      rw [Entries.find?_insert_self]
      apply CountsAs.list
    rw [appendAll, List.foldlM_cons, append_eq hk h, pure_bind]
    have hrest := ih hnext .new next
    rw [appendAll] at hrest
    rw [hrest, Entries.insert_insert_self, List.append_assoc, List.singleton_append]

/-- What appending under a key leaves of some entries: the list is under the key, which stands where
it stood or comes last, and nothing else changes. -/
structure Appended (es : Dict) (k : Key) (items : List Value) (ds : Dict) : Prop where
  found : ds.find? (Named.name k) = some (.list items)
  keys : ds.map Prod.fst =
    if Named.name k ∈ es.names then es.map Prod.fst else es.map Prod.fst ++ [k]
  others : ∀ name, name ≠ Named.name k → ds.find? name = es.find? name

theorem appended_insert (es : Dict) (k : Key) (items : List Value) :
  Appended es k items (es.insert k (.list items))
  := by
  constructor
  · apply Entries.find?_insert_self
  · apply Entries.keys_insert
  · intro name h
    apply Entries.find?_insert_of_ne h

/-! ### Other keys -/

/-- Two builds come to the same dictionary, except for the order of its entries. -/
def SameButOrder (x y : Build Value) : Prop :=
  ∃ es ds : Dict, x = pure (.dict es) ∧ y = pure (.dict ds) ∧ es.Perm ds

theorem append_evolve (hes : es.Distinct) (hk : key.key = .ok k)
    (h : CountsAs (es.find? (Named.name k)) old) {ds : Dict} (hds : Named.name k ∉ ds.names)
    (i j : Identity) (item : Value) :
  SameButOrder (do append (← evolve (.dict es i) (.dict ds j)) key item)
    (do evolve (← append (.dict es i) key item) (.dict ds j))
  := by
  have hmerged : CountsAs ((es.merge ds).find? (Named.name k)) old := by
    rw [Entries.find?_merge_of_notMem hds]
    apply h
  use (es.merge ds).insert k (.list (old ++ [item])), (es.insert k (.list (old ++ [item]))).merge ds
  constructor
  · rw [evolve_dict, Build.liftM_ok, pure_bind, append_eq hk hmerged]
  constructor
  · rw [append_eq hk h, pure_bind, evolve_dict, Build.liftM_ok]
  · apply Entries.perm_insert_merge hes hds

theorem append_append (hk : key.key = .ok k) (h : CountsAs (es.find? (Named.name k)) old)
    {other : Value} {l : Key} {items : List Value} (hl : other.key = .ok l)
    (hother : CountsAs (es.find? (Named.name l)) items) (hne : Named.name k ≠ Named.name l)
    (i : Identity) (item next : Value) :
  SameButOrder (do append (← append (.dict es i) other next) key item)
    (do append (← append (.dict es i) key item) other next)
  := by
  have hfirst : CountsAs ((es.insert l (.list (items ++ [next]))).find? (Named.name k)) old := by
    rw [Entries.find?_insert_of_ne hne]
    apply h
  have hsecond : CountsAs ((es.insert k (.list (old ++ [item]))).find? (Named.name l)) items := by
    rw [Entries.find?_insert_of_ne (Ne.symm hne)]
    apply hother
  use (es.insert l (.list (items ++ [next]))).insert k (.list (old ++ [item]))
  use (es.insert k (.list (old ++ [item]))).insert l (.list (items ++ [next]))
  constructor
  · rw [append_eq hl hother, pure_bind, append_eq hk hfirst]
  constructor
  · rw [append_eq hk h, pure_bind, append_eq hl hsecond]
  · apply Entries.perm_insert_insert hne

/-! ### The laws -/

/-- The laws of states, which hold with the order of the entries: merging is associative, the empty
state is neutral and every state is merged with itself to itself, keys may be left out before or
after merging, and all at once or one after the other.  Items that are appended under a key come
after those that were there, whether or not they are null, the key stays where it was or comes last,
and no other entry changes; so what is appended may be appended before or after what is done to
other keys, but for the order of the entries. -/
theorem merging_laws {as bs : Dict} (ha : as.Distinct) (hb : bs.Distinct) (i j : Identity) :
  (∀ (cs : Dict) l, ∃ es : Dict,
    (do evolve (← evolve (.dict as i) (.dict bs j)) (.dict cs l)) = .ok (.dict es) ∧
    (do evolve (.dict as i) (← evolve (.dict bs j) (.dict cs l))) = .ok (.dict es)) ∧
  (evolve (.dict as i) .empty = .ok (.dict as) ∧ evolve .empty (.dict as i) = .ok (.dict as) ∧
    evolve (.dict as i) (.dict as i) = .ok (.dict as)) ∧
  (∀ ks, ∃ es : Dict,
    (do without (← evolve (.dict as i) (.dict bs j)) ks) = .ok (.dict es) ∧
    (do evolve (← without (.dict as i) ks) (← without (.dict bs j) ks)) = .ok (.dict es)) ∧
  (∀ ks ls, ∃ es : Dict,
    (do without (← without (.dict as i) ks) ls) = .ok (.dict es) ∧
    without (.dict as i) (ks ++ ls) = .ok (.dict es)) ∧
  ∀ key k old, key.key = .ok k → CountsAs (as.find? (Named.name k)) old →
    (∀ item items, ∃ es, appendAll key (item :: items) (.dict as i) = pure (.dict es) ∧
      Appended as k (old ++ item :: items) es) ∧
    (∀ item, Named.name k ∉ bs.names →
      SameButOrder (do append (← evolve (.dict as i) (.dict bs j)) key item)
        (do evolve (← append (.dict as i) key item) (.dict bs j))) ∧
    ∀ other l others item next, other.key = .ok l → CountsAs (as.find? (Named.name l)) others →
      Named.name k ≠ Named.name l →
      SameButOrder (do append (← append (.dict as i) other next) key item)
        (do append (← append (.dict as i) key item) other next)
  := by
  constructor
  · intro cs l
    use (as.merge bs).merge cs, rfl
    rw [evolve_dict, ← Entries.merge_merge hb]
    rfl
  constructor
  · constructor
    · rfl
    constructor
    · have hempty : Entries.merge [] as = as := Entries.ofPairs_of_distinct ha
      conv_rhs => rw [← hempty]
      rfl
    · rw [evolve_dict, Entries.merge_self ha]
  constructor
  · intro ks
    use (as.merge bs).erase (namesOf ks), rfl
    rw [Entries.erase_merge]
    rfl
  constructor
  · intro ks ls
    use as.erase (namesOf ks ++ namesOf ls)
    constructor
    · rw [← Entries.erase_erase]
      rfl
    · rw [without_dict, namesOf_append]
  · intro key k old hk h
    constructor
    · intro item items
      use as.insert k (.list (old ++ item :: items)), appendAll_eq hk h i item items
      apply appended_insert
    constructor
    · intro item hbs
      apply append_evolve ha hk h hbs
    · intro other l others item next hl hother hne
      apply append_append hk h hl hother hne

/-- A state with a list, a null and a number in which null is appended to the list and under the null,
and which is merged with one that has the number and another name. -/
theorem merging_laws_of_overlap :
  let as : Dict := [("sort", .list [.int 1]), ("empty", .null), ("size", .int 5)]
  let bs : Dict := [("size", .int 9), ("from", .int 0)]
  as.Distinct ∧ bs.Distinct ∧
    (∃ es, appendAll (.str "sort") [.null, .int 2] (.dict as) = pure (.dict es) ∧
      Appended as "sort" [.int 1, .null, .int 2] es) ∧
    (∃ es, appendAll (.str "empty") [.null] (.dict as) = pure (.dict es) ∧
      Appended as "empty" [.null] es) ∧
    SameButOrder (do append (← evolve (.dict as) (.dict bs)) (.str "sort") .null)
      (do evolve (← append (.dict as) (.str "sort") .null) (.dict bs)) ∧
    SameButOrder (do append (← append (.dict as) (.str "empty") .null) (.str "sort") .null)
      (do append (← append (.dict as) (.str "sort") .null) (.str "empty") .null)
  := by
  intro as bs
  have ha : as.Distinct := by
    unfold Entries.Distinct
    decide
  have hb : bs.Distinct := by
    unfold Entries.Distinct
    decide
  have hlist : CountsAs (as.find? (Named.name (Key.text "sort"))) [.int 1] := .list _ .new
  have hnull : CountsAs (as.find? (Named.name (Key.text "empty"))) [] := .falsy rfl
  obtain ⟨-, -, -, -, hsort⟩ := merging_laws ha hb .new .new
  obtain ⟨happend, hevolve, hother⟩ := hsort (.str "sort") "sort" _ rfl hlist
  obtain ⟨hempty, -⟩ := hsort (.str "empty") "empty" _ rfl hnull
  use ha, hb, happend .null [.int 2], hempty .null [], hevolve .null (by decide)
  exact hother (.str "empty") "empty" _ .null .null rfl hnull (by decide)

end State

end SearchDsl
