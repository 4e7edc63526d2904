import SearchDsl.Proofs.Bulk

/-!
# Splitting the dictionary of an update

An update is given one dictionary for its header and its body.  The entries under four words make
the body, unless they are null, and all others make the header.  No entry is lost or made up,
header and body share no key, the order of the entries matters in the header alone, and header and
body put together are split into the same header and body again (`Operation.update_splits`).
-/

namespace SearchDsl

namespace Operation

/-! ### The two parts -/

/-- The entry is filed under one of the words for the body of an update. -/
def IsOfBody (e : Key × Value) : Prop := ∃ name ∈ bodyNames, e.1 = .text name

/-- No action has one of the words for a body, so that the key of such a name is the word itself. -/
theorem key_eq_of_mem_bodyNames {key : Key} {name : String} (hname : name ∈ bodyNames)
    (h : Named.name key = Name.text name) :
  key = .text name
  := by
  obtain htext | ⟨a, -, rfl⟩ := Key.eq_of_name_text h
  · apply htext
  · have hnone : ∀ a : Action, a.word ∉ bodyNames := by
      intro a
      cases a
      all_goals decide
    exact absurd hname (hnone a)

theorem isOfBody_iff {e : Key × Value} :
  IsOfBody e ↔ Named.name e.1 ∈ bodyNames.map Name.text
  := by
  rw [List.mem_map]
  constructor
  · rintro ⟨name, hname, hkey⟩
    use name, hname
    rw [hkey]
    rfl
  · rintro ⟨name, hname, hkey⟩
    use name, hname, key_eq_of_mem_bodyNames hname hkey.symm

theorem mem_updateHeader {es : Dict} {e : Key × Value} :
  e ∈ updateHeader es ↔ e ∈ es ∧ ¬IsOfBody e
  := by
  rw [updateHeader, Entries.mem_erase, isOfBody_iff]

theorem mem_body {es : Dict} (h : es.Distinct) {e : Key × Value} :
  e ∈ bodyNames.flatMap es.present ↔ e ∈ es ∧ IsOfBody e ∧ e.2.isNull = false
  := by
  simp only [List.mem_flatMap, Entries.mem_present_iff, Entries.find?_eq_some_iff h]
  constructor
  · rintro ⟨name, hname, hkey, ⟨d, hd, hdname, hvalue⟩, hnull⟩
    obtain rfl : d = e := by
      apply Prod.ext
      · rw [hkey, key_eq_of_mem_bodyNames hname hdname]
      · apply hvalue
    use hd, ⟨name, hname, hkey⟩, hnull
  · rintro ⟨he, ⟨name, hname, hkey⟩, hnull⟩
    use name, hname, hkey, ⟨e, he, congrArg Named.name hkey, rfl⟩, hnull

theorem disjoint_names (es : Dict) :
  (updateHeader es).names.Disjoint (Entries.names (bodyNames.flatMap es.present))
  := by
  rw [updateHeader, Entries.names_erase]
  intro k hheader hbody
  have hnot := of_decide_eq_true (List.mem_filter.1 hheader).2
  apply hnot ((Entries.names_flatMap_present es bodyNames).subset hbody)

theorem distinct_updateHeader {es : Dict} (h : es.Distinct) :
  (updateHeader es).Distinct
  := by
  unfold updateHeader Entries.erase
  apply h.filterNames

theorem distinct_body (es : Dict) :
  Entries.Distinct (bodyNames.flatMap es.present)
  := by
  have hnames : (bodyNames.map Name.text).Nodup := by decide
  apply hnames.sublist (Entries.names_flatMap_present es bodyNames)

/-- The body depends only on the entries under its words that are not null. -/
theorem body_congr {es ds : Dict} (hes : es.Distinct) (hds : ds.Distinct)
    (h : ∀ e, IsOfBody e → e.2.isNull = false → (e ∈ es ↔ e ∈ ds)) :
  bodyNames.flatMap es.present = bodyNames.flatMap ds.present
  := by
  have hfound : ∀ name ∈ bodyNames, ∀ v : Value, v.isNull = false →
      (es.find? name = some v ↔ ds.find? name = some v) := by
    intro name hname v hnull
    have hentry : ∀ fs : Dict, fs.Distinct → (fs.find? name = some v ↔ (.text name, v) ∈ fs) := by
      intro fs hfs
      rw [Entries.find?_eq_some_iff hfs]
      constructor
      · rintro ⟨e, he, hkey, rfl⟩
        rw [← key_eq_of_mem_bodyNames hname hkey]
        apply he
      · intro he
        use (.text name, v), he
        exact ⟨rfl, rfl⟩
    rw [hentry es hes, hentry ds hds]
    apply h (.text name, v) ⟨name, hname, rfl⟩ hnull
  apply List.flatMap_congr
  intro name hname
  rw [Entries.present_eq, Entries.present_eq]
  congr 2
  ext v
  simp only [Option.filter_eq_some_iff, Bool.not_eq_true', and_congr_left_iff]
  apply hfound name hname

/-- Two dictionaries with the same entries, of which those of the header are in the same order, have
the same header. -/
theorem updateHeader_congr {es ds : Dict} (hes : es.Distinct) (h : ds ⊆ es)
    (hnames : ds.names.filter (· ∉ bodyNames.map Name.text) =
      es.names.filter (· ∉ bodyNames.map Name.text)) :
  updateHeader ds = updateHeader es
  := by
  apply Entries.eq_of_names_eq (distinct_updateHeader hes)
  · intro e he
    obtain ⟨hmem, hnot⟩ := mem_updateHeader.1 he
    exact mem_updateHeader.2 ⟨h hmem, hnot⟩
  · unfold updateHeader
    rw [Entries.names_erase, Entries.names_erase, hnames]

theorem distinct_parts {es : Dict} (h : es.Distinct) :
  Entries.Distinct (updateHeader es ++ bodyNames.flatMap es.present)
  := by
  rw [Entries.Distinct, Entries.names_append, List.nodup_append']
  exact ⟨distinct_updateHeader h, distinct_body es, disjoint_names es⟩

/-- The names of the two parts that are no words for a body are those of the whole. -/
theorem names_parts (es : Dict) :
  (Entries.names (updateHeader es ++ bodyNames.flatMap es.present)).filter
      (· ∉ bodyNames.map Name.text) =
    es.names.filter (· ∉ bodyNames.map Name.text)
  := by
  have hnone : (Entries.names (bodyNames.flatMap es.present)).filter
      (· ∉ bodyNames.map Name.text) = [] := by
    rw [List.filter_eq_nil_iff]
    intro k hk
    have hword := (Entries.names_flatMap_present es bodyNames).subset hk
    simpa using hword
  rw [Entries.names_append, List.filter_append, hnone, List.append_nil, updateHeader,
    Entries.names_erase, List.filter_filter]
  simp only [Bool.and_self]

/-- An update is split by name: all entries but those under four words make the header, in their
order, and those under the words make the body, in the order of the words and unless they are null.
Dictionaries with the same entries, of which those of the header are in the same order, are the same
update, and so are the two parts put together. -/
theorem update_splits {es : Dict} (h : es.Distinct) (i : Identity) :
  ∃ header body : Dict,
    forUpdate (.dict es i) = pure ⟨.action .update, .dict header, .dict body⟩ ∧
    (∀ b : Bulk, b.apply (.update (.dict es i)) =
      pure ⟨b.operations ++ [.operation (.action .update) (.dict header) (.dict body)],
        b.encoding⟩) ∧
    header.Sublist es ∧ (∀ e, e ∈ header ↔ e ∈ es ∧ ¬IsOfBody e) ∧
    body.names.Sublist (bodyNames.map Name.text) ∧
    (∀ e, e ∈ body ↔ e ∈ es ∧ IsOfBody e ∧ e.2.isNull = false) ∧
    header.names.Disjoint body.names ∧
    (∀ e ∈ es, (e ∈ header ∧ e ∉ body) ∨ (e ∉ header ∧ e ∈ body) ∨
      (e ∉ header ∧ e ∉ body ∧ IsOfBody e ∧ e.2.isNull)) ∧
    (∀ (ds : Dict) (j : Identity), ds.Perm es →
      ds.names.filter (· ∉ bodyNames.map Name.text) =
        es.names.filter (· ∉ bodyNames.map Name.text) →
      forUpdate (.dict ds j) = forUpdate (.dict es i)) ∧
    forUpdate (.dict (header.merge body)) = forUpdate (.dict es i)
  := by
  have hheader : ∀ e, e ∈ updateHeader es ↔ e ∈ es ∧ ¬IsOfBody e := fun e => mem_updateHeader
  have hbody : ∀ e, e ∈ bodyNames.flatMap es.present ↔
      e ∈ es ∧ IsOfBody e ∧ e.2.isNull = false := fun e => mem_body h
  use updateHeader es, bodyNames.flatMap es.present, forUpdate_dict es i
  constructor
  · intro b
    rw [Bulk.apply, Bulk.Step.operation, forUpdate_dict, pure_bind]
    rfl
  constructor
  · apply List.filter_sublist
  use hheader, Entries.names_flatMap_present es bodyNames, hbody, disjoint_names es
  constructor
  · intro e he
    rw [hheader, hbody]
    by_cases hof : IsOfBody e
    · cases hnull : e.2.isNull
      all_goals simp [he, hof]
    · simp [he, hof]
  constructor
  · intro ds j hperm hnames
    have hds : ds.Distinct := (hperm.map fun e : Key × Value => Named.name e.1).nodup_iff.2 h
    have hsame : bodyNames.flatMap ds.present = bodyNames.flatMap es.present := by
      apply body_congr hds h
      intro e _ _
      apply hperm.mem_iff
    rw [forUpdate_dict, forUpdate_dict, hsame, updateHeader_congr h hperm.subset hnames]
  · have hparts := distinct_parts h
    have hsub : updateHeader es ++ bodyNames.flatMap es.present ⊆ es := by
      apply List.append_subset_of_subset_of_subset
      · intro e he
        apply ((hheader e).1 he).1
      · intro e he
        apply ((hbody e).1 he).1
    have hagain :
        bodyNames.flatMap (Entries.present (updateHeader es ++ bodyNames.flatMap es.present)) =
          bodyNames.flatMap es.present := by
      apply body_congr hparts h
      intro e hof hnull
      rw [List.mem_append, hheader, hbody]
      simp [hof, hnull]
    rw [Entries.merge_of_distinct hparts, forUpdate_dict, forUpdate_dict, hagain,
      updateHeader_congr h hsub (names_parts es)]

/-- Words for the body out of order, one of them null and two false as a condition. -/
def mixed : Dict :=
  [("doc_as_upsert", .bool false), ("_id", .str "1"), ("script", .null), ("doc", .empty)]

theorem update_splits_mixed :
  mixed.Distinct ∧
  ∃ header body : Dict,
    forUpdate (.dict mixed) = pure ⟨.action .update, .dict header, .dict body⟩ ∧
    header.Sublist mixed ∧
    forUpdate (.dict mixed.reverse) = forUpdate (.dict mixed) ∧
    forUpdate (.dict (header.merge body)) = forUpdate (.dict mixed) ∧
    (.text "_id", .str "1") ∈ header ∧
    (.text "doc", .empty) ∈ body ∧ (.text "doc_as_upsert", .bool false) ∈ body ∧
    (.text "script", .null) ∉ header ∧ (.text "script", .null) ∉ body
  := by
  have hmixed : mixed.Distinct := by
    unfold Entries.Distinct
    decide
  obtain ⟨header, body, hupdate, -, hsub, hheader, -, hbody, -, -, horder, hagain⟩ :=
    update_splits hmixed .new
  have hreverse : forUpdate (.dict mixed.reverse) = forUpdate (.dict mixed) := by
    apply horder _ .new (List.reverse_perm mixed)
    decide
  use hmixed, header, body, hupdate, hsub, hreverse, hagain
  simp [hheader, hbody, mixed, IsOfBody, bodyNames, Value.isNull, Value.empty]

end Operation

end SearchDsl
