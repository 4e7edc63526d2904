/-!
# Ordered entries

`Entries κ α` is a list of values filed under keys of type `κ`, in the order in which the
keys were first used.  Keys have names (`Named`), and keys of one name are the same to
every operation: setting a name that is present replaces its value in place and keeps the
key it was first filed under, and a new name goes to the end.  Merging, erasing and
looking up are defined from this.  A list of entries is `Distinct` when no name occurs
twice, and every operation here keeps it so.
-/

namespace SearchDsl

/-- What a key files under. -/
inductive Name where
  | null
  /-- The number `c · 10 ^ e`, where ten does not divide `c` unless both are zero. -/
  | number (c e : Int)
  | infinite (negative : Bool)
  | notANumber
  | text (s : String)
  /-- An object of the given kind with the given look. -/
  | object (kind look : String)
  deriving DecidableEq

instance : Coe String Name := ⟨Name.text⟩

/-- Something with a name. -/
class Named (κ : Type) where
  /-- The name. -/
  name : κ → Name

instance : Named String := ⟨Name.text⟩

@[simp]
theorem Named.name_string (s : String) :
  Named.name s = Name.text s
  := rfl

/-- Values filed under keys, in the order of the keys' first use. -/
abbrev Entries (κ α : Type) := List (κ × α)

namespace Entries

variable {κ α : Type} [Named κ]

/-- The names of the entries, in order. -/
def names (es : Entries κ α) : List Name := es.map fun e => Named.name e.1

/-- No name occurs twice. -/
def Distinct (es : Entries κ α) : Prop := es.names.Nodup

/-- The value filed first under the name `k`. -/
def find? (k : Name) : Entries κ α → Option α
  | [] => none
  | (l, v) :: es => if Named.name l = k then some v else find? k es

/-- Files `v` under `k`: in place when its name is present, at the end otherwise. -/
def insert (k : κ) (v : α) : Entries κ α → Entries κ α
  | [] => [(k, v)]
  | (l, w) :: es =>
    if Named.name l = Named.name k then (l, v) :: es else (l, w) :: insert k v es

/-- Files every entry of `ds` in `es`, in order. -/
def merge (es ds : Entries κ α) : Entries κ α :=
  ds.foldl (fun acc d => acc.insert d.1 d.2) es

/-- The entries that `ps` leaves when its pairs are filed one after the other. -/
def ofPairs (ps : List (κ × α)) : Entries κ α := merge [] ps

/-- The entries whose name satisfies `p`. -/
def filterNames (p : Name → Bool) (es : Entries κ α) : Entries κ α :=
  es.filter fun e => p (Named.name e.1)

/-- The entries whose name is not in `ks`. -/
def erase (ks : List Name) (es : Entries κ α) : Entries κ α :=
  es.filterNames fun k => !ks.contains k

/-- The entries whose name is in `ks`, in the order of `ks`. -/
def select (ks : List Name) (es : Entries κ α) : Entries κ α :=
  ks.flatMap fun k => es.filterNames (· == k)

/-- Files an entry before the first one whose key does not come `before` its own. -/
def insertSorted (before : κ → κ → Bool) (e : κ × α) : Entries κ α → Entries κ α
  | [] => [e]
  | other :: es =>
    if before other.1 e.1 then other :: insertSorted before e es else e :: other :: es

/-- The entries in the order of their keys. -/
def sortKeys (before : κ → κ → Bool) (es : Entries κ α) : Entries κ α :=
  es.foldr (insertSorted before) []

/-! ### Looking up -/

@[simp]
theorem find?_nil (k : Name) :
  find? k ([] : Entries κ α) = none
  := rfl

theorem find?_cons (k : Name) (l : κ) (v : α) (es : Entries κ α) :
  find? k ((l, v) :: es) = if Named.name l = k then some v else find? k es
  := rfl

@[simp]
theorem find?_insert_self (k : κ) (v : α) (es : Entries κ α) :
  (es.insert k v).find? (Named.name k) = some v
  := by
  induction es with
  | nil => simp [insert, find?]
  | cons e es ih =>
    obtain ⟨l, w⟩ := e
    by_cases h : Named.name l = Named.name k <;> simp [insert, find?, h, ih]

theorem find?_insert_of_ne {k : κ} {l : Name} (h : l ≠ Named.name k) (v : α)
    (es : Entries κ α) :
  (es.insert k v).find? l = es.find? l
  := by
  induction es with
  | nil => simp [insert, find?, Ne.symm h]
  | cons e es ih =>
    obtain ⟨m, w⟩ := e
    by_cases hm : Named.name m = Named.name k
    · have hl : Named.name m ≠ l := fun hml => h (hml.symm.trans hm)
      simp [insert, find?, hm, Ne.symm h]
    · by_cases hl : Named.name m = l
      · subst hl
        simp [insert, find?, hm]
      · simp [insert, find?, hm, hl, ih]

theorem find?_eq_none_iff {k : Name} {es : Entries κ α} :
  es.find? k = none ↔ k ∉ es.names
  := by
  induction es with
  | nil => simp [names]
  | cons e es ih =>
    obtain ⟨l, w⟩ := e
    by_cases h : Named.name l = k
    · simp [find?, names, h]
    · have : k ≠ Named.name l := Ne.symm h
      simp_all [find?, names]

/-! ### Names -/

theorem names_insert (k : κ) (v : α) (es : Entries κ α) :
  (es.insert k v).names = if Named.name k ∈ es.names then es.names else es.names ++ [Named.name k]
  := by
  induction es with
  | nil => simp [insert, names]
  | cons e es ih =>
    obtain ⟨l, w⟩ := e
    by_cases h : Named.name l = Named.name k
    · simp [insert, names, h]
    · have hk : Named.name k ≠ Named.name l := Ne.symm h
      have hmem : Named.name k ∈ names ((l, w) :: es) ↔ Named.name k ∈ names es := by
        simp only [names, List.map_cons, List.mem_cons, hk, false_or]
      have hcons : names (insert k v ((l, w) :: es)) = Named.name l :: names (insert k v es) := by
        simp only [insert, if_neg h, names, List.map_cons]
      rw [hcons, ih]
      by_cases hm : Named.name k ∈ names es
      · rw [if_pos hm, if_pos (hmem.2 hm)]
        rfl
      · rw [if_neg hm, if_neg fun h => hm (hmem.1 h)]
        rfl

theorem Distinct.insert {es : Entries κ α} (h : es.Distinct) (k : κ) (v : α) :
  (es.insert k v).Distinct
  := by
  unfold Distinct at *
  rw [names_insert]
  split
  · exact h
  · rename_i hk
    exact List.nodup_append.2 ⟨h, by simp, fun a ha b hb =>
      by rintro rfl; exact hk (List.mem_singleton.1 hb ▸ ha)⟩

theorem Distinct.merge {es : Entries κ α} (h : es.Distinct) (ds : Entries κ α) :
  (es.merge ds).Distinct
  := by
  induction ds generalizing es with
  | nil => exact h
  | cons d ds ih => exact ih (h.insert d.1 d.2)

theorem Distinct.filterNames {es : Entries κ α} (h : es.Distinct) (p : Name → Bool) :
  (es.filterNames p).Distinct
  := h.sublist (List.Sublist.map (fun e : κ × α => Named.name e.1) List.filter_sublist)

theorem distinct_ofPairs (ps : List (κ × α)) :
  (ofPairs ps).Distinct
  := by
  have h : Distinct ([] : Entries κ α) := List.nodup_nil
  apply h.merge

end Entries

end SearchDsl
