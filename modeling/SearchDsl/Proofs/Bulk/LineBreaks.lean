import Mathlib.Algebra.Ring.Nat
import SearchDsl.Proofs.Bulk.Decoding
import SearchDsl.Proofs.Ndjson.Parts
import SearchDsl.Proofs.Ndjson.Regular

/-!
# Line breaks in a payload

The usual serializer passes a text on as it is, and octets as the text that they are, so that the
line of such a value has its line breaks in it.  The line of every other value has none, or is
refused (`Ndjson.keepsToLine_of_isWritten`).  The payload of a bulk request then has the line breaks
at the end of its lines and those of the documents that are texts (`Bulk.lineBreaks_of_build`).  So
it has more lines than the request where such a document has a line break.

A line may also fail for another cause than that it is refused: octets that are no text do, and what
cannot be encoded and not be shown either (`Bulk.not_one_line_each`).
-/

namespace SearchDsl

namespace Ndjson

/-! ### Lines that are passed on -/

/-- The text that a value already is, so that it is passed on. -/
def given? : Value → Option String
  | .bytes octets => decodeUtf8? octets
  | v => v.text?

/-- The value is no octets but those of a text. -/
def IsDecodable (v : Value) : Prop :=
  ∀ octets, v = .bytes octets → ∃ text, decodeUtf8? octets = some text

/-- How many line breaks are passed on with a value. -/
def lineBreaks (v : Value) : Nat := (given? v).elim 0 fun text => text.toList.count '\n'

/-- The line of a value is a text without a line break, or is refused. -/
def KeepsToLine (v : Value) : Prop :=
  (∃ text, line (.ofValue .null) v = pure (.str text) ∧ '\n' ∉ text.toList) ∨
    ∃ shown, line (.ofValue .null) v = .fail (.unwritable shown)

/-- The fault of a line that has no text. -/
def lineFault : Value → Fault
  | .bytes _ => .malformedText
  | v => refusal v

theorem line_bytes (octets : List UInt8) :
  line .compact (.bytes octets) = liftM (decoded (.octets octets))
  := by
  rw [line_eq]
  change (pure (Encoded.octets octets) >>= fun answer => liftM (decoded answer)) = _
  rw [pure_bind]

theorem line_of_given {v : Value} {text : String} (h : given? v = some text) :
  line .compact v = pure (.str text)
  := by
  cases v with
  | str s =>
    obtain rfl := Option.some.inj h
    rfl
  | action a =>
    obtain rfl := Option.some.inj h
    rfl
  | bytes octets =>
    change decodeUtf8? octets = some text at h
    rw [line_bytes, decoded, h]
    rfl
  | _ => cases h

theorem line_bytes_of_none {octets : List UInt8} (h : decodeUtf8? octets = none) :
  line .compact (.bytes octets) = .fail .malformedText
  := by
  rw [line_bytes, decoded, h]
  rfl

/-- A value that is not passed on is written, or is octets that are no text. -/
theorem isWritten_or_of_given {v : Value} (h : given? v = none) :
  IsWritten v ∨ ∃ octets, v = .bytes octets ∧ decodeUtf8? octets = none
  := by
  cases v with
  | bytes octets =>
    right
    use octets, rfl, h
  | _ =>
    left
    exact ⟨h, fun _ => nofun⟩

/-- The line of a value that is written is a text without a line break, or fails as the refusal of
the value does. -/
theorem line_of_isWritten {v : Value} (h : IsWritten v) :
  (∃ text, line .compact v = pure (.str text) ∧ '\n' ∉ text.toList) ∨
    line .compact v = .fail (refusal v)
  := by
  cases hj : v.toJson? Value.converted? with
  | some j =>
    left
    use j.compact, line_of_toJson? h hj
    apply (isFrame_compact j).2.noLineBreak
  | none =>
    right
    apply line_of_toJson?_none h hj

theorem keepsToLine_of_isWritten {v : Value} (h : IsWritten v) (hregular : IsRegular v) :
  KeepsToLine v
  := by
  have hline := line_of_isWritten h
  rw [hregular.refusal] at hline
  apply hline.imp_right
  intro hfail
  use String.ofList v.literal
  apply hfail

/-- A line has the line breaks that are passed on with its value, or fails. -/
theorem line_cases (v : Value) :
  (∃ text, line .compact v = pure (.str text) ∧ text.toList.count '\n' = lineBreaks v) ∨
    line .compact v = .fail (lineFault v)
  := by
  unfold lineBreaks
  cases hv : given? v with
  | some text =>
    left
    use text, line_of_given hv
    rfl
  | none =>
    obtain hwritten | ⟨octets, rfl, hnone⟩ := isWritten_or_of_given hv
    · apply (line_of_isWritten hwritten).imp
      · rintro ⟨text, htext, hnone⟩
        use text, htext
        apply List.count_eq_zero_of_not_mem hnone
      · intro hfail
        have hfault : lineFault v = refusal v := by
          cases v with
          | bytes octets => exact absurd rfl (hwritten.2 octets)
          | _ => rfl
        rw [hfail, hfault]
    · right
      apply line_bytes_of_none hnone

/-- The line of a regular value is refused where it has no text, unless it is octets that are no
text. -/
theorem lineFault_cases {v : Value} (h : IsRegular v)
    (hline : line .compact v = .fail (lineFault v)) :
  lineFault v = .unwritable (String.ofList v.literal) ∨
    ¬IsDecodable v ∧ lineFault v = .malformedText
  := by
  cases v with
  | bytes octets =>
    right
    constructor
    · intro hdecodable
      obtain ⟨text, htext⟩ := hdecodable octets rfl
      have hpure : line .compact (.bytes octets) = pure (.str text) := line_of_given htext
      exact absurd (hline.symm.trans hpure) (Build.fail_ne_pure _ _)
    · rfl
  | _ =>
    left
    apply h.refusal

/-- A regular value keeps to its line if and only if no line break is passed on with it and it is no
octets but those of a text. -/
theorem keepsToLine_iff {v : Value} (h : IsRegular v) :
  KeepsToLine v ↔ lineBreaks v = 0 ∧ IsDecodable v
  := by
  unfold lineBreaks
  cases hv : given? v with
  | none =>
    obtain hwritten | ⟨octets, rfl, hnone⟩ := isWritten_or_of_given hv
    · apply iff_of_true (keepsToLine_of_isWritten hwritten h)
      use rfl
      rintro octets rfl
      exact absurd rfl (hwritten.2 octets)
    · have hline : line (.ofValue .null) (.bytes octets) = .fail .malformedText :=
        line_bytes_of_none hnone
      apply iff_of_false
      · rintro (⟨text, htext, -⟩ | ⟨shown, hrefused⟩)
        · exact Build.fail_ne_pure _ _ (hline.symm.trans htext)
        · cases Build.fail_injective (hline.symm.trans hrefused)
      · rintro ⟨-, hdecodable⟩
        obtain ⟨text, htext⟩ := hdecodable octets rfl
        cases htext.symm.trans hnone
  | some text =>
    have hline : line (.ofValue .null) v = pure (.str text) := line_of_given hv
    have hdecodable : IsDecodable v := by
      rintro octets rfl
      use text, hv
    rw [Option.elim_some, List.count_eq_zero]
    constructor
    · rintro (⟨other, hother, hnone⟩ | ⟨shown, hfail⟩)
      · obtain rfl := Value.str.inj (Build.pure_injective (hline.symm.trans hother))
        use hnone
      · exact absurd (hfail.symm.trans hline) (Build.fail_ne_pure _ _)
    · rintro ⟨hnone, -⟩
      left
      use text, hline

/-! ### Payloads -/

/-- Lines are joined with a line break at the end of each, or with one where there are none. -/
theorem count_joined (texts : List String) :
  (joined texts).toList.count '\n' =
    max 1 texts.length + (texts.map fun text => text.toList.count '\n').sum
  := by
  induction texts with
  | nil => rfl
  | cons text texts ih =>
    have hone : (joined [text]).toList.count '\n' = text.toList.count '\n' + 1 := by
      rw [joined, String.intercalate_singleton, String.toList_append, List.count_append]
      rfl
    have hmore : joined (text :: texts) =
        if texts = [] then joined [text] else joined [text] ++ joined texts :=
      (joined_append [text] texts).trans (if_neg (List.cons_ne_nil _ _))
    rw [hmore, List.map_cons, List.sum_cons, List.length_cons]
    split_ifs with hlast
    · subst hlast
      rw [hone]
      apply Nat.add_comm
    · have hlength := List.length_pos_of_ne_nil hlast
      rw [String.toList_append, List.count_append, hone, ih]
      omega

/-- A payload has a line break for each line and those that are passed on, or it fails as one of the
lines does. -/
theorem render_cases (values : List Value) :
  (∃ payload, render .compact values = pure payload ∧
    payload.toList.count '\n' = max 1 values.length + (values.map lineBreaks).sum) ∨
  ∃ v ∈ values, line .compact v = .fail (lineFault v) ∧
    render .compact values = .fail (lineFault v)
  := by
  obtain ⟨texts, htexts, hall⟩ | ⟨v, hv, hline, hfail⟩ := mapM_cases fun v _ => line_cases v
  · left
    have hcounts : texts.map (fun text => text.toList.count '\n') = values.map lineBreaks := by
      rw [← List.forall₂_eq_eq_eq, List.forall₂_map_left_iff, List.forall₂_map_right_iff]
      apply hall.flip
    use joined texts, render_of_texts htexts
    rw [count_joined, hcounts, hall.length_eq]
  · right
    use v, hv, hline
    rw [render, hfail]
    rfl

/-! ### Lines of operations -/

theorem lineBreaks_dict (es : Dict) (i : Identity) :
  lineBreaks (.dict es i) = 0
  := rfl

theorem lineBreaks_copy (v : Value) :
  lineBreaks v.copy = lineBreaks v
  := by
  have hgiven : given? v.copy = given? v := by
    cases v
    all_goals rfl
  rw [lineBreaks, lineBreaks, hgiven]

end Ndjson

namespace Bulk

/-! ### Documents that are texts -/

/-- How many line breaks are passed on with the document that a step puts in. -/
def Step.lineBreaks : Step → Nat
  | .index doc _ | .create doc _ => Ndjson.lineBreaks doc
  | _ => 0

/-- What is passed on with the lines of an operation is what is passed on with its document. -/
theorem Step.yields_lineBreaks (step : Step) :
  Build.Yields (fun o => ∃ ls, o.lines = .ok ls ∧ (ls.map Ndjson.lineBreaks).sum = step.lineBreaks)
    step.operation
  := by
  cases step with
  | index doc header =>
    apply Build.Yields.bind
    intro w
    apply Build.Yields.pure
    use [.single Action.index.word w, doc], rfl
    simp [Value.single, lineBreaks, Ndjson.lineBreaks_dict]
  | create doc header =>
    apply Build.Yields.bind
    intro w
    apply Build.Yields.pure
    use [.single Action.create.word w, doc], rfl
    simp [Value.single, lineBreaks, Ndjson.lineBreaks_dict]
  | update given =>
    apply Build.Yields.bind
    intro es
    apply Build.Yields.bind
    intro body
    apply Build.Yields.pure
    use [.single Action.update.word (.dict (Operation.updateHeader es)), .dict body], rfl
    simp [Value.single, lineBreaks, Ndjson.lineBreaks_dict]
  | delete header =>
    apply Build.Yields.bind
    intro w
    apply Build.Yields.pure
    use [.single Action.delete.word w], rfl
    simp [Value.single, lineBreaks, Ndjson.lineBreaks_dict]

/-- What is passed on with the lines of some operations is what is passed on with the documents. -/
theorem exists_lines_lineBreaks {steps : List Step} {os : List Operation}
    (h : List.Forall₂ (fun (step : Step) (o : Operation) =>
      ∃ ls, o.lines = .ok ls ∧ (ls.map Ndjson.lineBreaks).sum = step.lineBreaks) steps os) :
  ∃ lss, os.mapM Operation.lines = .ok lss ∧
    (lss.flatten.map Ndjson.lineBreaks).sum = (steps.map Step.lineBreaks).sum
  := by
  induction h with
  | nil => exact ⟨[], rfl, rfl⟩
  | @cons step o steps os ho _ ih =>
    obtain ⟨ls, hls, hcount⟩ := ho
    obtain ⟨lss, hlss, hrest⟩ := ih
    use ls :: lss
    constructor
    · rw [List.mapM_cons, hls, hlss]
      rfl
    · rw [List.flatten_cons, List.map_append, List.sum_append, hcount, hrest, List.map_cons,
        List.sum_cons]

/-- A regular value keeps to its line if and only if no line break is passed on with it and it is no
octets but those of a text.  The payload of a bulk request with regular lines has a line break for
each of them, or a single one where there are none, and those that are passed on with the documents,
unless a line of the request is refused or is octets that are no text. -/
theorem lineBreaks_of_build {v : Value} (hv : Ndjson.IsRegular v) {steps : List Step}
    {calls : Calls} {b : Bulk} (h : ((new .null).run steps calls).result = .ok b) :
  (Ndjson.KeepsToLine v ↔ Ndjson.lineBreaks v = 0 ∧ Ndjson.IsDecodable v) ∧
  ∃ lines, b.lines = .ok lines ∧ ((∀ l ∈ lines, Ndjson.IsRegular l) →
    (∃ payload, b.build = pure payload ∧
      payload.toList.count '\n' = max 1 lines.length + (steps.map Step.lineBreaks).sum) ∨
    ∃ l ∈ lines, b.build = .fail (.unwritable (String.ofList l.literal)) ∨
      ¬Ndjson.IsDecodable l ∧ b.build = .fail .malformedText)
  := by
  constructor
  · apply Ndjson.keepsToLine_iff hv
  · obtain ⟨os, rfl, hgives⟩ := exists_operations h
    obtain ⟨lss, hlss, hcount⟩ := exists_lines_lineBreaks <| hgives.imp fun step o ⟨_, ho⟩ =>
      step.yields_lineBreaks _ o ho
    have hlines := lines_toValue hlss .null
    have hcopies : (lss.flatten.map Value.copy).map Ndjson.lineBreaks =
        lss.flatten.map Ndjson.lineBreaks := by
      rw [List.map_map]
      congr 1
      funext v
      apply Ndjson.lineBreaks_copy
    use lss.flatten.map Value.copy, hlines
    intro hregular
    rw [build, hlines, Build.liftM_ok, pure_bind, ← hcount, ← hcopies]
    apply (Ndjson.render_cases (lss.flatten.map Value.copy)).imp_right
    rintro ⟨l, hl, hline, hfail⟩
    use l, hl
    obtain hrefused | ⟨hdecodable, hoctets⟩ := Ndjson.lineFault_cases (hregular l hl) hline
    · left
      rw [← hrefused]
      apply hfail
    · right
      use hdecodable
      rw [← hoctets]
      apply hfail

/-- Documents with line breaks, of which the text and the octets do not keep to their lines. -/
theorem lineBreaks_of_three_documents :
  ∃ b lines payload,
    ((new .null).run [.index (.str "one\ntwo\n") .null, .create (.bytes [123, 10, 125]) .null,
      .index (.list [.str "three\nfour"]) .null] (Script.callIn [] .empty)).result = .ok b ∧
    b.lines = .ok lines ∧ b.build = pure payload ∧
    payload.toList.count '\n' = max 1 lines.length + 3 ∧
    ¬Ndjson.KeepsToLine (.bytes [123, 10, 125])
  := by
  let steps : List Step := [.index (.str "one\ntwo\n") .null,
    .create (.bytes [123, 10, 125]) .null, .index (.list [.str "three\nfour"]) .null]
  let copies : List Value := [.single "index" .empty, .str "one\ntwo\n", .single "create" .empty,
    .bytes [123, 10, 125], .single "index" .empty, .list [.str "three\nfour"]]
  have hoctets : Ndjson.IsRegular (.bytes [123, 10, 125]) := by
    constructor
    · apply Value.shown_eq_ok_iff.1 rfl
    · rfl
    · rintro octets ⟨⟩
      rfl
  have hregular : ∀ l ∈ copies, Ndjson.IsRegular l := by
    simp only [copies, List.forall_mem_cons]
    refine ⟨?_, ?_, ?_, hoctets, ?_, ?_, nofun⟩
    all_goals exact ⟨Value.shown_eq_ok_iff.1 rfl, rfl, nofun⟩
  obtain ⟨b, hb, hcopies, payload, hpayload⟩ :
      ∃ b, ((new .null).run steps (Script.callIn [] .empty)).result = .ok b ∧
        b.lines = .ok copies ∧ ∃ payload, b.build = pure payload := ⟨_, rfl, rfl, _, rfl⟩
  obtain ⟨hkeeps, lines, hlines, hbuild⟩ := lineBreaks_of_build hoctets hb
  obtain rfl := Except.ok.inj (hcopies.symm.trans hlines)
  obtain ⟨payload, hbuild, hcount⟩ | ⟨l, -, hfail | ⟨-, hfail⟩⟩ := hbuild hregular
  · use b, copies, payload, hb, hlines, hbuild, hcount
    rw [hkeeps]
    rintro ⟨hnone, -⟩
    cases hnone
  all_goals exact absurd (hfail.symm.trans hpayload) (Build.fail_ne_pure _ _)

/-- A text with a line break in it stays so in its line.  Octets that are no text fail for another
cause than their line, and so does an object that cannot be shown.  So the payload of a single
document may have more line breaks than there are lines. -/
theorem not_one_line_each :
  ¬Ndjson.KeepsToLine (.str "a\nb") ∧ ¬Ndjson.KeepsToLine (.bytes [255]) ∧
  ¬Ndjson.KeepsToLine (.foreign "x" .new (some .missingKey)) ∧
  ∃ b lines payload, (new .null).run [.index (.str "a\nb") .null] = pure b ∧
    b.lines = .ok lines ∧ b.build = pure payload ∧
    payload.toList.count '\n' ≠ max 1 lines.length
  := by
  have hfails : ∀ (v : Value) (fault : Fault), (∀ shown, .unwritable shown ≠ fault) →
      Ndjson.line (.ofValue .null) v = .fail fault → ¬Ndjson.KeepsToLine v := by
    rintro v fault hother hline (⟨text, htext, -⟩ | ⟨shown, hrefused⟩)
    · exact Build.fail_ne_pure _ _ (hline.symm.trans htext)
    · apply hother shown (Build.fail_injective (hrefused.symm.trans hline))
  constructor
  · have htext : Ndjson.IsRegular (.str "a\nb") := ⟨Value.shown_eq_ok_iff.1 rfl, rfl, nofun⟩
    rw [Ndjson.keepsToLine_iff htext]
    rintro ⟨hnone, -⟩
    cases hnone
  constructor
  · apply hfails _ .malformedText (fun _ => nofun) rfl
  constructor
  · apply hfails _ .missingKey (fun _ => nofun) rfl
  · refine ⟨_, _, _, rfl, rfl, rfl, ?_⟩
    decide

end Bulk

end SearchDsl
