import Mathlib.Data.List.Induction
import Mathlib.Data.List.Nodup
import Mathlib.Data.List.Perm.Basic
import Mathlib.Tactic.Use
import SearchDsl.Entries

/-!
# The algebra of entries

What filing, merging and looking up have to do with one another.  A name is filed at the
place of its first use with the value of its last use: the names of `ofPairs ps` are the
names of `ps` without repetition, in order, and what is found under a name is what was
filed under it last.  All of it goes on alike when every value is replaced (`mapValues`).
-/

namespace SearchDsl

/-! ### First uses -/

theorem eraseDups_of_nodup {α : Type} [BEq α] [LawfulBEq α] {l : List α} (h : l.Nodup) :
  l.eraseDups = l
  := by
  induction l with
  | nil => rfl
  | cons a l ih =>
    obtain ⟨ha, hl⟩ := List.nodup_cons.1 h
    have hfilter : l.filter (fun b => !b == a) = l := by
      rw [List.filter_eq_self]
      intro b hb
      simp only [Bool.not_eq_true', beq_eq_false_iff_ne]
      rintro rfl
      exact ha hb
    rw [List.eraseDups_cons, hfilter, ih hl]

/-- One more use adds nothing where there was one before. -/
theorem eraseDups_concat {α : Type} [BEq α] [LawfulBEq α] (l : List α) (a : α) :
  (l ++ [a]).eraseDups = if a ∈ l then l.eraseDups else l.eraseDups ++ [a]
  := by
  by_cases h : a ∈ l
  · simp [List.eraseDups_append, List.cons_removeAll, h]
  · simp [List.eraseDups_append, List.cons_removeAll, h, List.eraseDups_cons]

theorem nodup_eraseDups {α : Type} [BEq α] [LawfulBEq α] (l : List α) :
  l.eraseDups.Nodup
  := by
  induction l using List.reverseRecOn with
  | nil => apply List.nodup_nil
  | append_singleton l a ih =>
    rw [eraseDups_concat]
    split
    · apply ih
    · rename_i ha
      rw [List.nodup_append]
      constructor
      · apply ih
      · constructor
        · apply List.pairwise_singleton
        · rintro b hb c hc rfl
          apply ha
          rw [← List.mem_singleton.1 hc]
          apply List.mem_eraseDups.1 hb

/-- What is in another order has its first uses in another order. -/
theorem perm_eraseDups {α : Type} [BEq α] [LawfulBEq α] {l m : List α} (h : l.Perm m) :
  l.eraseDups.Perm m.eraseDups
  := by
  rw [List.perm_ext_iff_of_nodup (nodup_eraseDups l) (nodup_eraseDups m)]
  intro a
  rw [List.mem_eraseDups, List.mem_eraseDups]
  apply h.mem_iff

namespace Entries

variable {κ α β : Type}

/-- The entries with every value replaced. -/
def mapValues (f : α → β) (es : Entries κ α) : Entries κ β := es.map fun e => (e.1, f e.2)

@[simp]
theorem mapValues_cons (f : α → β) (e : κ × α) (es : Entries κ α) :
  mapValues f (e :: es) = (e.1, f e.2) :: mapValues f es
  := rfl

variable [Named κ]

@[simp]
theorem names_nil :
  names ([] : Entries κ α) = []
  := rfl

@[simp]
theorem names_cons (e : κ × α) (es : Entries κ α) :
  names (e :: es) = Named.name e.1 :: names es
  := rfl

@[simp]
theorem names_append (es ds : Entries κ α) :
  names (es ++ ds) = names es ++ names ds
  := List.map_append

theorem find?_append (k : Name) (es ds : Entries κ α) :
  find? k (es ++ ds) = (find? k es).or (find? k ds)
  := by
  induction es with
  | nil => rfl
  | cons e es ih =>
    rw [List.cons_append, find?_cons, find?_cons, ih]
    split
    · rfl
    · rfl

theorem exists_mem_of_find? {k : Name} {v : α} {es : Entries κ α} (h : es.find? k = some v) :
  ∃ e ∈ es, Named.name e.1 = k ∧ e.2 = v
  := by
  induction es with
  | nil => cases h
  | cons e es ih =>
    rw [find?_cons] at h
    split at h
    · rename_i hname
      use e, List.mem_cons_self, hname, Option.some.inj h
    · obtain ⟨d, hd, hname, hv⟩ := ih h
      use d, List.mem_cons_of_mem e hd, hname, hv

/-! ### Filing -/

theorem insert_of_notMem {k : κ} {es : Entries κ α} (h : Named.name k ∉ es.names) (v : α) :
  es.insert k v = es ++ [(k, v)]
  := by
  induction es with
  | nil => rfl
  | cons e es ih =>
    rw [names_cons, List.mem_cons, not_or] at h
    rw [insert, if_neg (Ne.symm h.1), ih h.2]
    rfl

/-- Filing under the name of another key right after it replaces the value and keeps the key. -/
theorem insert_insert_of_name {k l : κ} (h : Named.name k = Named.name l) (v w : α)
    (es : Entries κ α) :
  (es.insert l v).insert k w = es.insert l w
  := by
  induction es with
  | nil => simp [insert, h]
  | cons e es ih =>
    by_cases he : Named.name e.1 = Named.name l
    · simp [insert, h, he]
    · simp [insert, h, he, ih]

theorem insert_insert_self (k : κ) (v w : α) (es : Entries κ α) :
  (es.insert k v).insert k w = es.insert k w
  := insert_insert_of_name rfl v w es

/-- Where a name is filed already, filing it again may be moved before filing a different one. -/
theorem insert_comm_of_mem {k l : κ} {es : Entries κ α} (hk : Named.name k ∈ es.names)
    (hne : Named.name k ≠ Named.name l) (v w : α) :
  (es.insert l w).insert k v = (es.insert k v).insert l w
  := by
  induction es with
  | nil => cases hk
  | cons e es ih =>
    rw [names_cons, List.mem_cons] at hk
    by_cases hek : Named.name e.1 = Named.name k
    · simp [insert, hek, hne]
    · have hmem := hk.resolve_left (Ne.symm hek)
      by_cases hel : Named.name e.1 = Named.name l
      · simp [insert, hel, Ne.symm hne]
      · simp [insert, hek, hel, ih hmem]

theorem names_subset_insert (k : κ) (v : α) (es : Entries κ α) :
  es.names ⊆ (es.insert k v).names
  := by
  rw [names_insert]
  split
  · apply List.Subset.refl
  · apply List.subset_append_left

theorem name_mem_insert (k : κ) (v : α) (es : Entries κ α) :
  Named.name k ∈ (es.insert k v).names
  := by
  rw [names_insert]
  split
  · assumption
  · simp

/-- What is filed under its name already may be filed again. -/
theorem insert_of_find? {k : κ} {v : α} {es : Entries κ α}
    (h : es.find? (Named.name k) = some v) :
  es.insert k v = es
  := by
  induction es with
  | nil => cases h
  | cons e es ih =>
    rw [find?_cons] at h
    rw [insert]
    split
    · rename_i heq
      rw [if_pos heq] at h
      rw [← Option.some.inj h]
    · rename_i hne
      rw [if_neg hne] at h
      rw [ih h]

/-- The keys that were there stay where they are, and a new one comes last. -/
theorem keys_insert (k : κ) (v : α) (es : Entries κ α) :
  (es.insert k v).map Prod.fst =
    if Named.name k ∈ es.names then es.map Prod.fst else es.map Prod.fst ++ [k]
  := by
  by_cases h : Named.name k ∈ es.names
  · rw [if_pos h]
    induction es with
    | nil => cases h
    | cons e es ih =>
      rw [insert]
      split
      · rfl
      · rename_i hne
        rw [names_cons, List.mem_cons] at h
        rw [List.map_cons, List.map_cons, ih (h.resolve_left fun heq => hne heq.symm)]
  · rw [if_neg h, insert_of_notMem h, List.map_append]
    rfl

/-- Where a name is filed already, filing it again changes its value alone. -/
theorem insert_of_mem {k : κ} {es : Entries κ α} (hes : es.Distinct)
    (hk : Named.name k ∈ es.names) (v : α) :
  es.insert k v = es.map fun e => if Named.name e.1 = Named.name k then (e.1, v) else e
  := by
  induction es with
  | nil => cases hk
  | cons e es ih =>
    obtain ⟨he, hrest⟩ := List.nodup_cons.1 hes
    rw [insert, List.map_cons]
    by_cases heq : Named.name e.1 = Named.name k
    · have hsame : (es.map fun e => if Named.name e.1 = Named.name k then (e.1, v) else e) =
          es.map id := by
        apply List.map_congr_left
        intro d hd
        have hd' : Named.name d.1 ∈ Entries.names es := List.mem_map_of_mem hd
        have hne : Named.name d.1 ≠ Named.name k := by
          intro hname
          rw [hname, ← heq] at hd'
          exact he hd'
        rw [if_neg hne]
        rfl
      rw [if_pos heq, if_pos heq, hsame, List.map_id]
    · rw [names_cons, List.mem_cons] at hk
      rw [if_neg heq, if_neg heq, ih hrest (hk.resolve_left (Ne.symm heq))]

/-! ### Merging -/

@[simp]
theorem merge_nil (es : Entries κ α) :
  es.merge [] = es
  := rfl

@[simp]
theorem merge_cons (es : Entries κ α) (d : κ × α) (ds : Entries κ α) :
  es.merge (d :: ds) = (es.insert d.1 d.2).merge ds
  := rfl

theorem merge_append (es ds fs : Entries κ α) :
  es.merge (ds ++ fs) = (es.merge ds).merge fs
  := List.foldl_append

theorem merge_of_distinct {es ds : Entries κ α} (h : Distinct (es ++ ds)) :
  es.merge ds = es ++ ds
  := by
  induction ds generalizing es with
  | nil => simp
  | cons d ds ih =>
    have hd : Named.name d.1 ∉ es.names := by
      rw [Distinct, names_append, names_cons] at h
      intro hmem
      apply (List.nodup_append.1 h).2.2 _ hmem _ List.mem_cons_self rfl
    rw [List.append_cons] at h ⊢
    rw [merge_cons, insert_of_notMem hd, ih h]

/-- Pairs whose names are distinct are entries as they are. -/
theorem ofPairs_of_distinct {ps : Entries κ α} (h : ps.Distinct) :
  ofPairs ps = ps
  := by
  have hnil : Distinct ([] ++ ps) := h
  apply merge_of_distinct hnil

/-- Names come in the order of their first use. -/
theorem names_merge {es : Entries κ α} (h : es.Distinct) (ds : Entries κ α) :
  (es.merge ds).names = (es.names ++ ds.names).eraseDups
  := by
  induction ds using List.reverseRecOn with
  | nil => simp [eraseDups_of_nodup h]
  | append_singleton ds d ih =>
    rw [merge_append, merge_cons, merge_nil, names_insert, ih, names_append, ← List.append_assoc,
      names_cons, names_nil, eraseDups_concat]
    simp only [List.mem_eraseDups]

theorem names_ofPairs (ps : Entries κ α) :
  (ofPairs ps).names = ps.names.eraseDups
  := by
  have h : Distinct ([] : Entries κ α) := List.nodup_nil
  apply names_merge h

/-- What is found under a name is what was filed under it last. -/
theorem find?_merge (k : Name) (es ds : Entries κ α) :
  (es.merge ds).find? k = (find? k ds.reverse).or (es.find? k)
  := by
  induction ds generalizing es with
  | nil => rfl
  | cons d ds ih =>
    rw [merge_cons, ih, List.reverse_cons, find?_append, Option.or_assoc]
    congr 1
    by_cases h : Named.name d.1 = k
    · subst h
      rw [find?_insert_self, find?_cons, if_pos rfl]
      rfl
    · rw [find?_insert_of_ne (Ne.symm h), find?_cons, if_neg h]
      rfl

/-- What is merged in leaves alone what it does not name. -/
theorem find?_merge_of_notMem {k : Name} {ds : Entries κ α} (h : k ∉ ds.names)
    (es : Entries κ α) :
  (es.merge ds).find? k = es.find? k
  := by
  induction ds generalizing es with
  | nil => rfl
  | cons d ds ih =>
    rw [names_cons, List.mem_cons, not_or] at h
    rw [merge_cons, ih h.2, find?_insert_of_ne h.1]

theorem find?_ofPairs (k : Name) (ps : Entries κ α) :
  (ofPairs ps).find? k = find? k ps.reverse
  := by
  rw [ofPairs, find?_merge]
  apply Option.or_none

/-- Where a name is there already and not among what is merged in, it may be filed before. -/
theorem insert_merge_of_mem {k : κ} {es ds : Entries κ α} (hes : Named.name k ∈ es.names)
    (hds : Named.name k ∉ ds.names) (v : α) :
  (es.merge ds).insert k v = (es.insert k v).merge ds
  := by
  induction ds generalizing es with
  | nil => rfl
  | cons d ds ih =>
    rw [names_cons, List.mem_cons, not_or] at hds
    rw [merge_cons, merge_cons, ih (names_subset_insert _ _ _ hes) hds.2,
      insert_comm_of_mem hes hds.1]

/-- Filing in what is merged in is filing in what comes of merging. -/
theorem merge_insert {ds : Entries κ α} (h : ds.Distinct) (es : Entries κ α) (k : κ) (v : α) :
  es.merge (ds.insert k v) = (es.merge ds).insert k v
  := by
  induction ds generalizing es with
  | nil => rfl
  | cons d ds ih =>
    obtain ⟨hd, hds⟩ := List.nodup_cons.1 h
    rw [insert, merge_cons]
    split
    · rename_i heq
      have hk : Named.name k ∉ Entries.names ds := by
        rw [← heq]
        apply hd
      have hmem : Named.name k ∈ (es.insert d.1 d.2).names := by
        rw [← heq]
        apply name_mem_insert
      rw [merge_cons, insert_merge_of_mem hmem hk, insert_insert_of_name heq.symm]
    · rw [merge_cons, ih hds]

theorem merge_merge {ds : Entries κ α} (h : ds.Distinct) (es fs : Entries κ α) :
  es.merge (ds.merge fs) = (es.merge ds).merge fs
  := by
  induction fs generalizing ds with
  | nil => rfl
  | cons f fs ih => rw [merge_cons, ih (h.insert f.1 f.2), merge_insert h, merge_cons]

/-- What is merged in comes before what was there. -/
theorem find?_merge_of_mem {k : Name} {ds : Entries κ α} (h : ds.Distinct) (hk : k ∈ ds.names)
    (es : Entries κ α) :
  (es.merge ds).find? k = ds.find? k
  := by
  have hfind : ds.find? k = find? k ds.reverse := by
    conv_lhs => rw [← ofPairs_of_distinct h]
    apply find?_ofPairs
  rw [find?_merge, ← hfind]
  cases hv : ds.find? k with
  | none => exact absurd hk (find?_eq_none_iff.1 hv)
  | some v => rfl

/-! ### Membership -/

/-- Where no name occurs twice, what is found is what is there. -/
theorem find?_eq_some_iff {es : Entries κ α} (h : es.Distinct) {k : Name} {v : α} :
  es.find? k = some v ↔ ∃ e ∈ es, Named.name e.1 = k ∧ e.2 = v
  := by
  constructor
  · apply exists_mem_of_find?
  · rintro ⟨e, he, rfl, rfl⟩
    cases hfound : es.find? (Named.name e.1) with
    | none =>
      have hname : Named.name e.1 ∈ es.names := List.mem_map_of_mem he
      exact absurd hname (find?_eq_none_iff.1 hfound)
    | some v =>
      obtain ⟨d, hd, hname, rfl⟩ := exists_mem_of_find? hfound
      rw [List.inj_on_of_nodup_map h hd he hname]

/-- Distinct entries are known from their names in order and from what is among them. -/
theorem eq_of_names_eq {es ds : Entries κ α} (h : es.Distinct) (hsub : ds ⊆ es)
    (hnames : ds.names = es.names) :
  ds = es
  := by
  have hlength : ds.length = es.length := by
    simpa [names] using congrArg List.length hnames
  apply List.ext_getElem hlength
  intro n hn hm
  apply List.inj_on_of_nodup_map h (hsub (List.getElem_mem hn)) (List.getElem_mem hm)
  have hget := congrArg (fun ns : List Name => ns[n]?) hnames
  simpa [names, hn, hm] using hget

/-- Merging in what is there already changes nothing. -/
theorem merge_of_find? {es ds : Entries κ α}
    (h : ∀ d ∈ ds, es.find? (Named.name d.1) = some d.2) :
  es.merge ds = es
  := by
  induction ds with
  | nil => rfl
  | cons d ds ih =>
    obtain ⟨hd, hds⟩ := List.forall_mem_cons.1 h
    rw [merge_cons, insert_of_find? hd, ih hds]

theorem merge_self {es : Entries κ α} (h : es.Distinct) :
  es.merge es = es
  := by
  apply merge_of_find?
  intro e he
  exact (find?_eq_some_iff h).2 ⟨e, he, rfl, rfl⟩

/-! ### Order of keys -/

omit [Named κ] in
theorem perm_insertSorted (before : κ → κ → Bool) (e : κ × α) (es : Entries κ α) :
  (insertSorted before e es).Perm (e :: es)
  := by
  induction es with
  | nil => apply List.Perm.refl
  | cons other es ih =>
    rw [insertSorted]
    split
    · apply (ih.cons other).trans (List.Perm.swap e other es)
    · apply List.Perm.refl

omit [Named κ] in
/-- Entries are the same but for their order when they are sorted. -/
theorem perm_sortKeys (before : κ → κ → Bool) (es : Entries κ α) :
  (es.sortKeys before).Perm es
  := by
  induction es with
  | nil => apply List.Perm.refl
  | cons e es ih => apply (perm_insertSorted before e _).trans (ih.cons e)

/-! ### Erasing -/

theorem erase_cons (ks : List Name) (e : κ × α) (es : Entries κ α) :
  erase ks (e :: es) = if Named.name e.1 ∈ ks then erase ks es else e :: erase ks es
  := by
  simp [erase, filterNames, List.filter_cons]

theorem erase_erase (ks ls : List Name) (es : Entries κ α) :
  (es.erase ks).erase ls = es.erase (ks ++ ls)
  := by
  simp [erase, filterNames, List.filter_filter, Bool.and_comm]

theorem erase_insert_of_mem {k : κ} {ks : List Name} (h : Named.name k ∈ ks) (v : α)
    (es : Entries κ α) :
  (es.insert k v).erase ks = es.erase ks
  := by
  induction es with
  | nil => rw [insert, erase_cons, if_pos h]
  | cons e es ih =>
    rw [insert]
    split
    · rename_i heq
      rw [erase_cons, erase_cons, heq, if_pos h, if_pos h]
    · rw [erase_cons, erase_cons, ih]

theorem erase_insert_of_notMem {k : κ} {ks : List Name} (h : Named.name k ∉ ks) (v : α)
    (es : Entries κ α) :
  (es.insert k v).erase ks = (es.erase ks).insert k v
  := by
  induction es with
  | nil => rw [insert, erase_cons, if_neg h]; rfl
  | cons e es ih =>
    rw [insert, erase_cons]
    by_cases heq : Named.name e.1 = Named.name k
    · rw [if_pos heq, erase_cons, heq, if_neg h, if_neg h, insert, if_pos heq]
    · rw [if_neg heq, erase_cons, ih]
      split
      · rfl
      · rw [insert, if_neg heq]

/-- What is left out may be left out before merging. -/
theorem erase_merge (ks : List Name) (es ds : Entries κ α) :
  (es.merge ds).erase ks = (es.erase ks).merge (ds.erase ks)
  := by
  induction ds generalizing es with
  | nil => rfl
  | cons d ds ih =>
    rw [merge_cons, ih, erase_cons]
    split
    · rename_i hd
      rw [erase_insert_of_mem hd]
    · rename_i hd
      rw [erase_insert_of_notMem hd, merge_cons]

theorem mem_erase {ks : List Name} {e : κ × α} {es : Entries κ α} :
  e ∈ es.erase ks ↔ e ∈ es ∧ Named.name e.1 ∉ ks
  := by
  rw [erase, filterNames, List.mem_filter]
  simp

theorem find?_erase_of_notMem {k : Name} {ks : List Name} (h : k ∉ ks) (es : Entries κ α) :
  (es.erase ks).find? k = es.find? k
  := by
  induction es with
  | nil => rfl
  | cons e es ih =>
    rw [erase_cons, find?_cons]
    by_cases he : Named.name e.1 ∈ ks
    · have hne : Named.name e.1 ≠ k := by
        rintro rfl
        exact h he
      rw [if_pos he, if_neg hne, ih]
    · rw [if_neg he, find?_cons, ih]

theorem names_erase (ks : List Name) (es : Entries κ α) :
  (es.erase ks).names = es.names.filter (· ∉ ks)
  := by
  rw [names, names, List.filter_map]
  simp [erase, filterNames, Function.comp_def]

/-! ### Entries in another order -/

theorem Distinct.of_perm {es ds : Entries κ α} (h : es.Distinct) (hperm : es.Perm ds) :
  ds.Distinct
  := (hperm.map _).nodup h

theorem perm_insert {es ds : Entries κ α} (hes : es.Distinct) (h : es.Perm ds) (k : κ) (v : α) :
  (es.insert k v).Perm (ds.insert k v)
  := by
  have hnames : Named.name k ∈ es.names ↔ Named.name k ∈ ds.names := (h.map _).mem_iff
  by_cases hk : Named.name k ∈ es.names
  · rw [insert_of_mem hes hk, insert_of_mem (hes.of_perm h) (hnames.1 hk)]
    apply h.map
  · rw [insert_of_notMem hk, insert_of_notMem fun hds => hk (hnames.2 hds)]
    apply h.append_right

theorem perm_merge {es fs : Entries κ α} (hes : es.Distinct) (h : es.Perm fs)
    (ds : Entries κ α) :
  (es.merge ds).Perm (fs.merge ds)
  := by
  induction ds generalizing es fs with
  | nil => apply h
  | cons d ds ih => exact ih (hes.insert d.1 d.2) (perm_insert hes h d.1 d.2)

/-- Filing under two names comes to the same in either order, but for the order of the entries. -/
theorem perm_insert_insert {k l : κ} (h : Named.name k ≠ Named.name l) (v w : α)
    (es : Entries κ α) :
  ((es.insert l w).insert k v).Perm ((es.insert k v).insert l w)
  := by
  by_cases hk : Named.name k ∈ es.names
  · rw [insert_comm_of_mem hk h]
  · by_cases hl : Named.name l ∈ es.names
    · rw [insert_comm_of_mem hl (Ne.symm h)]
    · have hboth : ∀ {m n : κ} {x : α}, Named.name m ≠ Named.name n → Named.name m ∉ es.names →
          Named.name m ∉ (es.insert n x).names := by
        intro m n x hmn hm
        rw [← find?_eq_none_iff, find?_insert_of_ne hmn, find?_eq_none_iff]
        apply hm
      rw [insert_of_notMem (hboth h hk), insert_of_notMem (hboth (Ne.symm h) hl),
        insert_of_notMem hk, insert_of_notMem hl, List.append_assoc, List.append_assoc]
      apply List.Perm.append_left
      apply List.Perm.swap

/-- What is filed may be filed before what is merged in under other names. -/
theorem perm_insert_merge {k : κ} {es ds : Entries κ α} (hes : es.Distinct)
    (hk : Named.name k ∉ ds.names) (v : α) :
  ((es.merge ds).insert k v).Perm ((es.insert k v).merge ds)
  := by
  induction ds generalizing es with
  | nil => apply List.Perm.refl
  | cons d ds ih =>
    rw [names_cons, List.mem_cons, not_or] at hk
    rw [merge_cons, merge_cons]
    have hswap := perm_insert_insert hk.1 v d.2 es
    apply (ih (hes.insert d.1 d.2) hk.2).trans
    apply perm_merge ((hes.insert d.1 d.2).insert k v) hswap

/-! ### Mapping values -/

@[simp]
theorem names_mapValues (f : α → β) (es : Entries κ α) :
  (mapValues f es).names = es.names
  := List.map_map

@[simp]
theorem find?_mapValues (f : α → β) (k : Name) (es : Entries κ α) :
  (mapValues f es).find? k = (es.find? k).map f
  := by
  induction es with
  | nil => rfl
  | cons e es ih =>
    rw [mapValues_cons, find?_cons, find?_cons, ih]
    split
    · rfl
    · rfl

theorem mapValues_insert (f : α → β) (k : κ) (v : α) (es : Entries κ α) :
  mapValues f (es.insert k v) = (mapValues f es).insert k (f v)
  := by
  induction es with
  | nil => rfl
  | cons e es ih =>
    rw [insert, mapValues_cons, insert]
    split
    · rfl
    · rw [mapValues_cons, ih]

theorem erase_mapValues (f : α → β) (ks : List Name) (es : Entries κ α) :
  (mapValues f es).erase ks = mapValues f (es.erase ks)
  := List.filter_map

theorem mapValues_merge (f : α → β) (es ds : Entries κ α) :
  mapValues f (es.merge ds) = (mapValues f es).merge (mapValues f ds)
  := by
  induction ds generalizing es with
  | nil => rfl
  | cons d ds ih => rw [merge_cons, ih, mapValues_insert, mapValues_cons, merge_cons]

end Entries

end SearchDsl
