import SearchDsl.Bulk
import SearchDsl.Proofs.Ndjson
import SearchDsl.Proofs.View

/-!
# The payload of a bulk request

A run of bulk steps adds the operations of the steps, one for each and in order
(`Bulk.run_eq`).  For plain headers and documents nothing in it can fail, and the payload,
taken apart at its line breaks, denotes the lines of the request one by one
(`Bulk.payload_denotes_lines`).
-/

namespace SearchDsl

/-- A value that may stand on a line: plain data that is no text. -/
def Value.IsLine (v : Value) : Prop := v.Plain ∧ ∀ s, v ≠ .str s

/-- A plain dictionary. -/
def Value.IsHeader (v : Value) : Prop := ∃ es i, v = .dict es i ∧ v.Plain

theorem Value.IsHeader.isLine {v : Value} (h : v.IsHeader) :
  v.IsLine
  := by
  obtain ⟨es, i, rfl, hplain⟩ := h
  constructor
  · apply hplain
  · intro s
    apply Value.noConfusion

theorem Value.IsLine.copy {v : Value} (h : v.IsLine) :
  v.copy.IsLine
  := by
  obtain ⟨hplain, htext⟩ := h
  constructor
  · apply hplain.copy
  · cases hplain with
    | null => intro s; apply Value.noConfusion
    | bool b => intro s; apply Value.noConfusion
    | int n => intro s; apply Value.noConfusion
    | str t => exact absurd rfl (htext t)
    | list each i => intro s; apply Value.noConfusion
    | dict distinct texts each i => intro s; apply Value.noConfusion

theorem Value.IsHeader.single {v : Value} (h : v.Plain) (name : String) :
  (Value.single name v).IsHeader
  := by
  use [(.text name, v)], .new, rfl
  apply Value.Plain.dict
  · apply List.pairwise_singleton
  · rw [Entries.Texts, List.forall_mem_singleton]
    use name
  · rw [List.forall_mem_singleton]
    apply h

theorem Value.IsHeader.toDict {v : Value} (h : v.IsHeader) :
  ∃ w, v.toDict = .ok w ∧ w.IsHeader
  := by
  obtain ⟨es, i, rfl, hplain⟩ := h
  use .dict es, rfl
  cases hplain with
  | dict distinct texts each =>
    use es, .new, rfl
    apply Value.Plain.dict distinct texts each

theorem Value.IsHeader.orEmpty {v : Value} (h : v = .null ∨ v.IsHeader) :
  v.orEmpty.IsHeader
  := by
  have hempty : Value.empty.IsHeader := by
    use [], .new, rfl
    apply Value.Plain.dict
    · apply List.nodup_nil
    · apply Entries.texts_nil
    · intro e he
      cases he
  obtain rfl | h := h
  · apply hempty
  · unfold Value.orEmpty Value.orElse
    split
    · apply h
    · apply hempty

namespace Operation

/-- The lines of an operation are plain. -/
structure Plain (o : Operation) : Prop where
  action : ∃ a, o.action = .action a
  header : o.header.IsHeader
  body : o.hasBody → o.body.IsLine

theorem Plain.lines {o : Operation} (h : o.Plain) :
  ∃ ls, o.lines = .ok ls ∧ ls ≠ [] ∧ ∀ l ∈ ls, l.IsLine
  := by
  obtain ⟨a, ha⟩ := h.action
  have hfirst : o.actionLine = .ok (.single a.word o.header) := by
    rw [actionLine, ha]
  have hline : (Value.single a.word o.header).IsLine := by
    apply Value.IsHeader.isLine
    apply Value.IsHeader.single h.header.isLine.1
  use if o.hasBody then [.single a.word o.header, o.body] else [.single a.word o.header]
  constructor
  · rw [Operation.lines, hfirst]
    rfl
  · split
    · rename_i hbody
      constructor
      · apply List.cons_ne_nil
      · exact List.forall_mem_cons.2 ⟨hline, List.forall_mem_singleton.2 (h.body hbody)⟩
    · constructor
      · apply List.cons_ne_nil
      · exact List.forall_mem_singleton.2 hline

/-! ### Updates -/

theorem updateBody_dict (es : Dict) (i : Identity) :
  updateBody (.dict es i) = pure (bodyNames.flatMap es.present)
  := by
  have hpresent : (Value.dict es i).whenPresent = fun name => pure (es.present name) := by
    funext name
    apply Value.whenPresent_dict
  rw [updateBody, hpresent, List.mapM_pure, pure_bind]
  rfl

/-- The dictionary of an update is split by name. -/
theorem forUpdate_dict (es : Dict) (i : Identity) :
  forUpdate (.dict es i) =
    pure ⟨.action .update, .dict (updateHeader es), .dict (bodyNames.flatMap es.present)⟩
  := by
  have hentries : (Value.dict es i).entries = .ok es := rfl
  rw [forUpdate, hentries, updateBody_dict]
  rfl

theorem isHeader_updateHeader {es : Dict} {i : Identity} (h : (Value.dict es i).Plain) :
  (Value.dict (updateHeader es)).IsHeader
  := by
  cases h with
  | dict distinct texts each =>
    use updateHeader es, .new, rfl
    apply Value.Plain.dict
    · unfold updateHeader Entries.erase
      apply Entries.Distinct.filterNames distinct
    · intro e he
      apply texts e (List.mem_of_mem_filter he)
    · intro e he
      apply each e (List.mem_of_mem_filter he)

theorem isHeader_updateBody {es : Dict} {i : Identity} (h : (Value.dict es i).Plain) :
  (Value.dict (bodyNames.flatMap es.present)).IsHeader
  := by
  cases h with
  | dict distinct texts each =>
    use bodyNames.flatMap es.present, .new, rfl
    apply Value.Plain.dict
    · have hnames : (bodyNames.map Name.text).Nodup := by decide
      apply hnames.sublist (Entries.names_flatMap_present es bodyNames)
    · intro e he
      obtain ⟨name, -, hname⟩ := List.mem_flatMap.1 he
      use name
      apply (Entries.mem_present hname).1
    · intro e he
      obtain ⟨name, -, hname⟩ := List.mem_flatMap.1 he
      obtain ⟨d, hd, -, hv⟩ := Entries.exists_mem_of_find? (Entries.mem_present hname).2
      rw [← hv]
      apply each d hd

end Operation

namespace Bulk

/-! ### Runs -/

/-- A run adds the operations of its steps, in order. -/
theorem run_eq (b : Bulk) (steps : List Step) :
  b.run steps = do
    return ⟨b.operations ++ (← steps.mapM Step.operation).map Operation.toValue, b.encoding⟩
  := by
  induction steps generalizing b with
  | nil => simp [run]
  | cons step steps ih =>
    unfold run at ih ⊢
    rw [List.foldlM_cons, List.mapM_cons, apply]
    simp only [bind_assoc, pure_bind, ih, List.map_cons, List.append_assoc, List.singleton_append]

/-- The lines of a request are copies of those of its operations, one after the other. -/
theorem lines_toValue {os : List Operation} {lss : List (List Value)}
    (h : os.mapM Operation.lines = .ok lss) (encoding : Value) :
  (⟨os.map Operation.toValue, encoding⟩ : Bulk).lines = .ok (lss.flatten.map Value.copy)
  := by
  rw [lines, List.mapM_map]
  change (os.mapM Operation.lines >>= _) = _
  rw [h]
  rfl

/-- The documents and headers of a step are plain.  Headers are dictionaries, and may be left out
where a document is put in. -/
def Step.Plain : Step → Prop
  | .index doc header => doc.IsLine ∧ (header = .null ∨ header.IsHeader)
  | .create doc header => doc.IsLine ∧ (header = .null ∨ header.IsHeader)
  | .update given => given.IsHeader
  | .delete header => header.IsHeader

theorem Step.Plain.operation {step : Step} (h : step.Plain) :
  ∃ o, step.operation = pure o ∧ o.Plain
  := by
  cases step with
  | index doc header =>
    obtain ⟨hdoc, hheader⟩ := h
    obtain ⟨w, hw, hplain⟩ := (Value.IsHeader.orEmpty hheader).toDict
    use ⟨.action .index, w, doc⟩
    constructor
    · rw [Step.operation, hw]
      rfl
    · exact ⟨⟨.index, rfl⟩, hplain, fun _ => hdoc⟩
  | create doc header =>
    obtain ⟨hdoc, hheader⟩ := h
    obtain ⟨w, hw, hplain⟩ := (Value.IsHeader.orEmpty hheader).toDict
    use ⟨.action .create, w, doc⟩
    constructor
    · rw [Step.operation, hw]
      rfl
    · exact ⟨⟨.create, rfl⟩, hplain, fun _ => hdoc⟩
  | update given =>
    obtain ⟨es, i, rfl, hplain⟩ := h
    rw [Step.operation, Operation.forUpdate_dict]
    use ⟨.action .update, .dict (Operation.updateHeader es),
      .dict (Operation.bodyNames.flatMap (Entries.present es))⟩, rfl
    have hbody := Operation.isHeader_updateBody hplain
    exact ⟨⟨.update, rfl⟩, Operation.isHeader_updateHeader hplain, fun _ => hbody.isLine⟩
  | delete header =>
    obtain ⟨w, hw, hplain⟩ := Value.IsHeader.toDict h
    use ⟨.action .delete, w, .null⟩
    constructor
    · rw [Step.operation, hw]
      rfl
    · exact ⟨⟨.delete, rfl⟩, hplain, fun hbody => nomatch hbody⟩

/-- Plain operations have lines, and no lines only where there are no operations. -/
theorem lines_of_plain {os : List Operation} (each : ∀ o ∈ os, o.Plain) (encoding : Value) :
  ∃ ls, (⟨os.map Operation.toValue, encoding⟩ : Bulk).lines = .ok ls ∧ (ls = [] ↔ os = []) ∧
    ∀ l ∈ ls, l.IsLine
  := by
  have heach : ∀ o ∈ os, ∃ ls, o.lines = pure (id ls) ∧ ls ≠ [] ∧ ∀ l ∈ ls, l.IsLine := by
    intro o ho
    apply (each o ho).lines
  obtain ⟨lss, hlss, hall⟩ := exists_mapM_eq_pure heach
  have hlines : ∀ ls ∈ lss, ls ≠ [] ∧ ∀ l ∈ ls, l.IsLine := by
    intro ls hls
    obtain ⟨o, -, h⟩ := exists_of_forall₂ hall ls hls
    apply h
  rw [List.map_id] at hlss
  use lss.flatten.map Value.copy, lines_toValue hlss encoding
  constructor
  · cases hall with
    | nil => simp
    | cons hls _ => simp [hls.1]
  · rw [List.forall_mem_map]
    intro l hl
    obtain ⟨ls, hls, hmem⟩ := List.mem_flatten.1 hl
    apply Value.IsLine.copy
    apply (hlines ls hls).2 l hmem

/-- The payload of plain operations can be built, and taken apart at its line breaks it denotes
the lines of the request one by one. -/
theorem payload_denotes_lines (steps : List Step) (each : ∀ step ∈ steps, step.Plain) :
  ∃ b lines payload, (new .null).run steps = pure b ∧ b.lines = .ok lines ∧
    b.build = pure payload ∧ (steps = [] → payload = "\n") ∧
    (steps ≠ [] → ∃ texts, Ndjson.pieces payload = texts ++ [""] ∧
      List.Forall₂ Ndjson.Denotes texts lines)
  := by
  have hsteps : ∀ step ∈ steps, ∃ o, step.operation = pure (id o) ∧ o.Plain := by
    intro step hstep
    apply (each step hstep).operation
  obtain ⟨os, hos, hall⟩ := exists_mapM_eq_pure hsteps
  have hplain : ∀ o ∈ os, o.Plain := by
    intro o ho
    obtain ⟨step, -, h⟩ := exists_of_forall₂ hall o ho
    apply h
  obtain ⟨ls, hls, hempty, hlines⟩ := lines_of_plain hplain .null
  obtain ⟨texts, htexts, htextOf⟩ := Ndjson.render_of_plain hlines
  have hdenotes : List.Forall₂ Ndjson.Denotes texts ls := (htextOf.imp fun _ _ h => h.1).flip
  have hbreaks : ∀ text ∈ texts, '\n' ∉ text.toList := by
    intro text htext
    obtain ⟨v, -, h⟩ := exists_of_forall₂ htextOf text htext
    apply h.2
  use ⟨os.map Operation.toValue, .null⟩, ls, Ndjson.joined texts
  constructor
  · rw [run_eq, hos, List.map_id]
    rfl
  constructor
  · apply hls
  constructor
  · rw [build, hls, Build.liftM_ok, pure_bind]
    apply htexts
  constructor
  · rintro rfl
    obtain rfl : os = [] := List.forall₂_nil_left_iff.1 hall
    obtain rfl : ls = [] := hempty.2 rfl
    obtain rfl : texts = [] := List.forall₂_nil_right_iff.1 hdenotes
    rfl
  · intro hsome
    have htextsNe : texts ≠ [] := by
      rintro rfl
      have hnone : ls = [] := List.forall₂_nil_left_iff.1 hdenotes
      obtain rfl : os = [] := hempty.1 hnone
      apply hsome
      apply List.forall₂_nil_right_iff.1 hall
    use texts
    constructor
    · apply Ndjson.pieces_joined htextsNe hbreaks
    · apply hdenotes

/-- A document with a line break in it and a deletion. -/
theorem payload_of_index_and_delete :
  ∃ b lines payload,
    (new .null).run [.index (.single "note" (.str "one\ntwo")) .null,
      .delete (.single "_id" (.int 7))] = pure b ∧
    b.lines = .ok lines ∧ b.build = pure payload ∧
    ∃ texts, Ndjson.pieces payload = texts ++ [""] ∧ List.Forall₂ Ndjson.Denotes texts lines
  := by
  have hdoc := Value.IsHeader.single (Value.Plain.str "one\ntwo") "note"
  have hheader := Value.IsHeader.single (Value.Plain.int 7) "_id"
  obtain ⟨b, lines, payload, hrun, hlines, hbuild, -, htexts⟩ :=
    payload_denotes_lines [.index (.single "note" (.str "one\ntwo")) .null,
      .delete (.single "_id" (.int 7))]
      (List.forall_mem_cons.2 ⟨⟨hdoc.isLine, Or.inl rfl⟩, List.forall_mem_singleton.2 hheader⟩)
  use b, lines, payload, hrun, hlines, hbuild
  apply htexts (List.cons_ne_nil _ _)

end Bulk

end SearchDsl
