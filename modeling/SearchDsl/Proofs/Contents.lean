import SearchDsl.Proofs.View
import SearchDsl.State

/-!
# Contents

The contents of a value (`Value.contents`) are what it holds, with no regard to which
lists, dictionaries and objects hold it.  A copy has the contents of the value that it is a
copy of (`Value.contents_copy`), and so has whatever else a traversal makes that only gives
new identities.

Contents are compared under names.  The name of a key that is an object may tell by its
number which object it is, so that keys are left as they are where entries are compared
(`Entries.mapValues`).
-/

namespace SearchDsl

namespace Value

/-- A value in which everything has just been made. -/
def contents (v : Value) : Value := v.mapIdentities fun _ => .new

end Value

/-- A key with the object that it is replaced. -/
def Key.mapObject (f : Value → Value) : Key → Key
  | .object v => .object (f v)
  | key => key

@[simp]
theorem Key.mapObject_text (f : Value → Value) (s : String) :
  (Key.text s).mapObject f = .text s
  := rfl

namespace Value

variable {replace : Value → Identity → Option Value} {mark : Identity → Identity}

theorem traverseAll_eq_map (items : List Value) :
  traverseAll (m := Id) replace mark items = items.map (traverse (m := Id) replace mark)
  := by
  induction items with
  | nil => rfl
  | cons item items ih =>
    rw [List.map_cons, ← ih]
    rfl

theorem traverseKey_eq_mapObject (key : Key) :
  traverseKey (m := Id) replace mark key = key.mapObject (traverse (m := Id) replace mark)
  := by
  cases key
  all_goals rfl

theorem traverseEntries_eq_map (es : Dict) :
  traverseEntries (m := Id) replace mark es =
    es.map fun e =>
      (e.1.mapObject (traverse (m := Id) replace mark), traverse (m := Id) replace mark e.2)
  := by
  induction es with
  | nil => rfl
  | cons e es ih =>
    rw [List.map_cons, ← ih, ← traverseKey_eq_mapObject]
    rfl

/-! ### Contents of data -/

@[simp]
theorem contents_list (items : List Value) (i : Identity) :
  contents (.list items i) = .list (items.map contents)
  := congrArg (Value.list · .new) (traverseAll_eq_map items)

@[simp]
theorem contents_tuple (items : List Value) :
  contents (.tuple items) = .tuple (items.map contents)
  := congrArg Value.tuple (traverseAll_eq_map items)

@[simp]
theorem contents_held (v : Value) :
  contents (.held v) = .held v.contents
  := rfl

@[simp]
theorem contents_dict (es : Dict) (i : Identity) :
  contents (.dict es i) = .dict (es.map fun e => (e.1.mapObject contents, e.2.contents))
  := congrArg (Value.dict · .new) (traverseEntries_eq_map es)

/-! ### Copies of data -/

@[simp]
theorem copy_list (items : List Value) (i : Identity) :
  copy (.list items i) = .list (items.map copy) i.copied
  := congrArg (Value.list · i.copied) (traverseAll_eq_map items)

@[simp]
theorem copy_tuple (items : List Value) :
  copy (.tuple items) = .tuple (items.map copy)
  := congrArg Value.tuple (traverseAll_eq_map items)

@[simp]
theorem copy_dict (es : Dict) (i : Identity) :
  copy (.dict es i) = .dict (es.map fun e => (e.1.mapObject copy, e.2.copy)) i.copied
  := congrArg (Value.dict · i.copied) (traverseEntries_eq_map es)

/-! ### Traversals that keep the contents -/

end Value

/-- A way to say of every result in a monad that something holds of it. -/
structure Always (m : Type → Type) [Monad m] where
  holds : {α : Type} → (α → Prop) → m α → Prop
  pure {α : Type} {P : α → Prop} {a : α} : P a → holds P (Pure.pure a)
  bind {α β : Type} {P : α → Prop} {Q : β → Prop} {x : m α} {f : α → m β} :
    holds P x → (∀ a, P a → holds Q (f a)) → holds Q (x >>= f)

/-- Without effects there is one result. -/
def Always.id : Always Id where
  holds P a := P a
  pure h := h
  bind h hf := hf _ h

/-- What holds of the result in every state of which `I` holds, which holds afterwards as well. -/
def Always.state {σ : Type} (I : σ → Prop) : Always (StateM σ) where
  holds P x := ∀ s, I s → P (x.run s).1 ∧ I (x.run s).2
  pure h _ hs := ⟨h, hs⟩
  bind h hf s hs := hf _ (h s hs).1 _ (h s hs).2

namespace Value

section Traversal

variable {m : Type → Type} [Monad m] {A : Always m}
  {replace : Value → Identity → Option Value} {mark : Identity → m Identity}

/-- What may be replaced instead keeps the contents where the traversal of it does. -/
theorem contents_replaced
    (shared : ∀ v i w, replace v i = some w → w.contents = v.contents) (v : Value)
    {x : m Value} (h : A.holds (fun w => w.contents = v.contents) x) :
  A.holds (fun w => w.contents = v.contents)
    (match v.identity?.bind (replace v) with
    | some w => pure w
    | none => x)
  := by
  split
  · rename_i hw
    obtain ⟨i, -, hw⟩ := Option.bind_eq_some_iff.1 hw
    apply A.pure
    apply shared _ _ _ hw
  · apply h

mutual

/-- A traversal that replaces nothing by something of other contents keeps the contents. -/
theorem contents_traverse
    (shared : ∀ v i w, replace v i = some w → w.contents = v.contents)
    (marks : ∀ i, A.holds (fun _ => True) (mark i)) : (v : Value) →
  A.holds (fun w => w.contents = v.contents) (traverse replace mark v)
  | .null => A.pure rfl
  | .bool _ => A.pure rfl
  | .int _ => A.pure rfl
  | .float _ => A.pure rfl
  | .str _ => A.pure rfl
  | .decimal _ => A.pure rfl
  | .date _ => A.pure rfl
  | .dateTime _ => A.pure rfl
  | .uuid _ => A.pure rfl
  | .bytes _ => A.pure rfl
  | .action _ => A.pure rfl
  | .clauses => A.pure rfl
  | .foreign name i fault? => by
    rw [traverse]
    apply contents_replaced shared
    apply A.bind (marks i)
    intro j _
    apply A.pure
    rfl
  | .function param body scope i => by
    rw [traverse]
    apply contents_replaced shared
    apply A.bind (marks i)
    intro j _
    apply A.pure
    rfl
  | .encoding e i => by
    rw [traverse]
    apply contents_replaced shared
    apply A.bind (marks i)
    intro j _
    apply A.pure
    rfl
  | .list items i => by
    rw [traverse]
    apply contents_replaced shared
    apply A.bind (marks i)
    intro j _
    apply A.bind (contents_traverseAll shared marks items)
    intro ws hws
    apply A.pure
    apply congrArg (Value.list · .new) hws
  | .tuple items => by
    rw [traverse]
    apply contents_replaced shared
    apply A.bind (contents_traverseAll shared marks items)
    intro ws hws
    apply A.pure
    apply congrArg Value.tuple hws
  | .dict es i => by
    rw [traverse]
    apply contents_replaced shared
    apply A.bind (marks i)
    intro j _
    apply A.bind (contents_traverseEntries shared marks es)
    intro ds hds
    apply A.pure
    apply congrArg (Value.dict · .new) hds
  | .held v => by
    rw [traverse]
    apply contents_replaced shared
    apply A.bind (contents_traverse shared marks v)
    intro w hw
    apply A.pure
    apply congrArg Value.held hw
  | .query name params => by
    rw [traverse]
    apply contents_replaced shared
    apply A.bind (contents_traverseEntries shared marks params)
    intro ds hds
    apply A.pure
    apply congrArg (Value.query name) hds
  | .scoreFunction name params => by
    rw [traverse]
    apply contents_replaced shared
    apply A.bind (contents_traverseEntries shared marks params)
    intro ds hds
    apply A.pure
    apply congrArg (Value.scoreFunction name) hds
  | .search parts indices => by
    rw [traverse]
    apply contents_replaced shared
    apply A.bind (contents_traverseEntries shared marks parts)
    intro ds hds
    apply A.bind (contents_traverseNames shared marks indices)
    intro names hnames
    apply A.pure
    apply congrArg₂ Value.search hds hnames
  | .operation act header body => by
    rw [traverse]
    apply contents_replaced shared
    apply A.bind (contents_traverse shared marks act)
    intro act' hact
    apply A.bind (contents_traverse shared marks header)
    intro header' hheader
    apply A.bind (contents_traverse shared marks body)
    intro body' hbody
    apply A.pure
    change Value.operation _ _ _ = Value.operation _ _ _
    congr 1
  | .request state withQuery i => by
    rw [traverse]
    apply contents_replaced shared
    apply A.bind (marks i)
    intro j _
    apply A.bind (contents_traverse shared marks state)
    intro w hw
    apply A.pure
    apply congrArg (Value.request · withQuery .new) hw
  | .boolQuery state i => by
    rw [traverse]
    apply contents_replaced shared
    apply A.bind (marks i)
    intro j _
    apply A.bind (contents_traverse shared marks state)
    intro w hw
    apply A.pure
    apply congrArg (Value.boolQuery · .new) hw
  | .aggregations nodes last i => by
    rw [traverse]
    apply contents_replaced shared
    apply A.bind (marks i)
    intro j _
    apply A.bind (contents_traverse shared marks nodes)
    intro w hw
    apply A.bind (contents_traverse shared marks last)
    intro l hl
    apply A.pure
    apply congrArg₂ (Value.aggregations · · .new) hw hl
  | .suggestions state i => by
    rw [traverse]
    apply contents_replaced shared
    apply A.bind (marks i)
    intro j _
    apply A.bind (contents_traverse shared marks state)
    intro w hw
    apply A.pure
    apply congrArg (Value.suggestions · .new) hw
  | .indexConfig state i => by
    rw [traverse]
    apply contents_replaced shared
    apply A.bind (marks i)
    intro j _
    apply A.bind (contents_traverse shared marks state)
    intro w hw
    apply A.pure
    apply congrArg (Value.indexConfig · .new) hw
  | .bulk operations e i => by
    rw [traverse]
    apply contents_replaced shared
    apply A.bind (marks i)
    intro j _
    apply A.bind (contents_traverseAll shared marks operations)
    intro ws hws
    apply A.bind (contents_traverse shared marks e)
    intro w hw
    apply A.pure
    apply congrArg₂ (Value.bulk · · .new) hws hw
  | .multiSearch searches e i => by
    rw [traverse]
    apply contents_replaced shared
    apply A.bind (marks i)
    intro j _
    apply A.bind (contents_traverseAll shared marks searches)
    intro ws hws
    apply A.bind (contents_traverse shared marks e)
    intro w hw
    apply A.pure
    apply congrArg₂ (Value.multiSearch · · .new) hws hw

theorem contents_traverseAll
    (shared : ∀ v i w, replace v i = some w → w.contents = v.contents)
    (marks : ∀ i, A.holds (fun _ => True) (mark i)) : (items : List Value) →
  A.holds
    (fun ws => traverseAll (m := Id) (fun _ _ => none) (fun _ => Identity.new) ws =
      traverseAll (m := Id) (fun _ _ => none) (fun _ => Identity.new) items)
    (traverseAll replace mark items)
  | [] => A.pure rfl
  | item :: items => by
    rw [traverseAll]
    apply A.bind (contents_traverse shared marks item)
    intro w hw
    apply A.bind (contents_traverseAll shared marks items)
    intro ws hws
    apply A.pure
    apply congrArg₂ List.cons hw hws

theorem contents_traverseKey
    (shared : ∀ v i w, replace v i = some w → w.contents = v.contents)
    (marks : ∀ i, A.holds (fun _ => True) (mark i)) : (key : Key) →
  A.holds
    (fun k => traverseKey (m := Id) (fun _ _ => none) (fun _ => Identity.new) k =
      traverseKey (m := Id) (fun _ _ => none) (fun _ => Identity.new) key)
    (traverseKey replace mark key)
  | .null => A.pure rfl
  | .bool _ => A.pure rfl
  | .int _ => A.pure rfl
  | .float _ => A.pure rfl
  | .text _ => A.pure rfl
  | .action _ => A.pure rfl
  | .object v => by
    rw [traverseKey]
    apply A.bind (contents_traverse shared marks v)
    intro w hw
    apply A.pure
    apply congrArg Key.object hw

theorem contents_traverseEntries
    (shared : ∀ v i w, replace v i = some w → w.contents = v.contents)
    (marks : ∀ i, A.holds (fun _ => True) (mark i)) :
    (es : List (Key × Value)) →
  A.holds
    (fun ds => traverseEntries (m := Id) (fun _ _ => none) (fun _ => Identity.new) ds =
      traverseEntries (m := Id) (fun _ _ => none) (fun _ => Identity.new) es)
    (traverseEntries replace mark es)
  | [] => A.pure rfl
  | (key, v) :: es => by
    rw [traverseEntries]
    apply A.bind (contents_traverseKey shared marks key)
    intro k hk
    apply A.bind (contents_traverse shared marks v)
    intro w hw
    apply A.bind (contents_traverseEntries shared marks es)
    intro ds hds
    apply A.pure
    apply congrArg₂ List.cons (congrArg₂ Prod.mk hk hw) hds

theorem contents_traverseNames
    (shared : ∀ v i w, replace v i = some w → w.contents = v.contents)
    (marks : ∀ i, A.holds (fun _ => True) (mark i)) :
    (names : Option (List Value)) →
  A.holds
    (fun ws => traverseNames (m := Id) (fun _ _ => none) (fun _ => Identity.new) ws =
      traverseNames (m := Id) (fun _ _ => none) (fun _ => Identity.new) names)
    (traverseNames replace mark names)
  | none => A.pure rfl
  | some names => by
    rw [traverseNames]
    apply A.bind (contents_traverseAll shared marks names)
    intro ws hws
    apply A.pure
    apply congrArg some hws

end

end Traversal

@[simp]
theorem contents_copy (v : Value) :
  v.copy.contents = v.contents
  := by
  have shared : ∀ (v : Value) (i : Identity) (w : Value), v.function? = some w →
      w.contents = v.contents := by
    intro v i w h
    unfold function? at h
    split at h
    · cases h
      rfl
    · cases h
  apply contents_traverse (A := .id) shared fun _ => trivial

@[simp]
theorem contents_contents (v : Value) :
  v.contents.contents = v.contents
  := by
  apply contents_traverse (A := .id) _ fun _ => trivial
  intro v i w h
  cases h

end Value

/-! ### Entries of the same contents -/

namespace Entries

/-- The same keys in the same order, with values of the same contents. -/
def Alike (es ds : Dict) : Prop := mapValues Value.contents es = mapValues Value.contents ds

namespace Alike

variable {es ds fs gs : Dict}

theorem refl (es : Dict) : Alike es es := rfl

theorem symm (h : es.Alike ds) : ds.Alike es := Eq.symm h

theorem trans (h : es.Alike ds) (h' : ds.Alike fs) : es.Alike fs := Eq.trans h h'

theorem names (h : es.Alike ds) :
  es.names = ds.names
  := by
  rw [← names_mapValues Value.contents es, h, names_mapValues]

theorem cons (h : es.Alike ds) (k : Key) {v w : Value} (hvw : v.contents = w.contents) :
  Alike ((k, v) :: es) ((k, w) :: ds)
  := by
  unfold Alike at *
  rw [mapValues_cons, mapValues_cons, h, hvw]

theorem insert (h : es.Alike ds) (k : Key) {v w : Value} (hvw : v.contents = w.contents) :
  Alike (es.insert k v) (ds.insert k w)
  := by
  unfold Alike at *
  rw [mapValues_insert, mapValues_insert, h, hvw]

theorem merge (h : es.Alike ds) (h' : fs.Alike gs) :
  Alike (Entries.merge es fs) (Entries.merge ds gs)
  := by
  unfold Alike at *
  rw [mapValues_merge, mapValues_merge, h, h']

theorem erase (h : es.Alike ds) (ks : List Name) :
  Alike (es.erase ks) (ds.erase ks)
  := by
  unfold Alike at *
  rw [← erase_mapValues, ← erase_mapValues, h]

theorem contents_dict (h : es.Alike ds) (i j : Identity) :
  (Value.dict es i).contents = (Value.dict ds j).contents
  := by
  have hcontents : ∀ fs : Dict, (fs.map fun e => (e.1.mapObject Value.contents, e.2.contents)) =
      (mapValues Value.contents fs).map fun e => (e.1.mapObject Value.contents, e.2) := by
    intro fs
    rw [mapValues, List.map_map]
    rfl
  rw [Value.contents_dict, Value.contents_dict, hcontents, hcontents, h]

end Alike

/-- All keys are texts. -/
def Texts (es : Dict) : Prop := ∀ e ∈ es, ∃ s, e.1 = Key.text s

theorem texts_nil : Texts [] := by
  intro e he
  cases he

theorem texts_cons {e : Key × Value} {es : Dict} :
  Texts (e :: es) ↔ (∃ s, e.1 = Key.text s) ∧ Texts es
  := List.forall_mem_cons

theorem Texts.insert {es : Dict} (h : es.Texts) (s : String) (v : Value) :
  Texts (es.insert s v)
  := by
  induction es with
  | nil =>
    rw [Entries.insert, Texts, List.forall_mem_singleton]
    use s
  | cons e es ih =>
    obtain ⟨he, hes⟩ := texts_cons.1 h
    rw [Entries.insert]
    split
    · exact texts_cons.2 ⟨he, hes⟩
    · exact texts_cons.2 ⟨he, ih hes⟩

theorem Texts.merge {es ds : Dict} (h : es.Texts) (h' : ds.Texts) :
  Texts (Entries.merge es ds)
  := by
  induction ds generalizing es with
  | nil => apply h
  | cons d ds ih =>
    obtain ⟨k, v⟩ := d
    obtain ⟨⟨s, hs⟩, hds⟩ := texts_cons.1 h'
    obtain rfl : k = .text s := hs
    apply ih (h.insert s v) hds

theorem Texts.erase {es : Dict} (h : es.Texts) (ks : List Name) :
  Texts (es.erase ks)
  := fun e he => h e (List.mem_of_mem_filter he)

theorem Texts.of_alike {es ds : Dict} (h : es.Texts) (halike : ds.Alike es) :
  ds.Texts
  := by
  have hkeys : ds.map Prod.fst = es.map Prod.fst := by
    have h := congrArg (List.map Prod.fst) halike
    rwa [mapValues, mapValues, List.map_map, List.map_map] at h
  intro d hd
  have hkey : d.1 ∈ es.map Prod.fst := hkeys ▸ List.mem_map_of_mem hd
  obtain ⟨e, he, heq⟩ := List.mem_map.1 hkey
  rw [← heq]
  apply h e he

/-- A copy of some entries. -/
def copied (es : Dict) : Dict := es.map fun e => (e.1.mapObject Value.copy, e.2.copy)

/-! ### Entries under texts -/

section MapObject

variable (f : Value → Value)

/-- Replacing objects that are keys neither takes nor gives a key the name of a text. -/
theorem name_mapObject_iff (key : Key) (s : String) :
  Named.name (key.mapObject f) = .text s ↔ Named.name key = .text s
  := by
  cases key with
  | object v => exact iff_of_false ((f v).name_ne_text s) (v.name_ne_text s)
  | _ => rfl

theorem find?_mapObject (es : Dict) (s : String) :
  find? (.text s) (es.map fun e => (e.1.mapObject f, f e.2)) = (find? (.text s) es).map f
  := by
  induction es with
  | nil => rfl
  | cons e es ih =>
    rw [List.map_cons, find?_cons, find?_cons, ih]
    by_cases he : Named.name e.1 = .text s
    · rw [if_pos he, if_pos ((name_mapObject_iff f e.1 s).2 he), Option.map_some]
    · rw [if_neg he, if_neg fun h => he ((name_mapObject_iff f e.1 s).1 h)]

theorem insert_mapObject (es : Dict) (s : String) (v : Value) :
  (es.insert (.text s) v).map (fun e => (e.1.mapObject f, f e.2)) =
    Entries.insert (.text s) (f v) (es.map fun e => (e.1.mapObject f, f e.2))
  := by
  induction es with
  | nil => rfl
  | cons e es ih =>
    rw [List.map_cons, Entries.insert, Entries.insert, Key.name_text]
    by_cases he : Named.name e.1 = .text s
    · rw [if_pos he, if_pos ((name_mapObject_iff f e.1 s).2 he), List.map_cons]
    · rw [if_neg he, if_neg fun h => he ((name_mapObject_iff f e.1 s).1 h), List.map_cons, ih]

theorem erase_mapObject (es : Dict) (s : String) :
  Entries.erase [.text s] (es.map fun e => (e.1.mapObject f, f e.2)) =
    (es.erase [.text s]).map fun e => (e.1.mapObject f, f e.2)
  := by
  unfold erase filterNames
  rw [List.filter_map]
  congr 2
  funext e
  have h := name_mapObject_iff f e.1 s
  simp [h]

end MapObject

/-- What is found under a text in a copy is the copy of what is found under it. -/
theorem find?_copy_text (es : Dict) (s : String) :
  find? (.text s) (es.map fun e => (e.1.mapObject Value.copy, e.2.copy)) =
    (find? (.text s) es).map Value.copy
  := find?_mapObject Value.copy es s

/-- Keys that are texts stay when a dictionary is copied. -/
theorem Texts.copy_alike {es : Dict} (h : es.Texts) :
  Alike (es.map fun e => (e.1.mapObject Value.copy, e.2.copy)) es
  := by
  unfold Alike mapValues
  rw [List.map_map]
  apply List.map_congr_left
  intro e he
  obtain ⟨s, hs⟩ := h e he
  simp [hs]

end Entries

end SearchDsl
