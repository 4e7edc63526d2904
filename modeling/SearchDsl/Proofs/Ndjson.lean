import SearchDsl.Ndjson
import SearchDsl.Proofs.Build
import SearchDsl.Proofs.Json.Reading
import SearchDsl.Proofs.Plain

/-!
# Lines of JSON

The payload of some values, taken apart at its line breaks (`Ndjson.pieces`), gives back their
lines and an empty piece at the end, as long as no line holds a line break
(`Ndjson.pieces_joined`).  With the usual serializer values that are neither text nor octets have
a payload where they stand for JSON data (`Ndjson.exists_renderItems_iff`).  The line of each is
not empty and holds no control character, whatever characters are in the value, so that the
payload is taken apart into the lines (`Ndjson.pieces_of_renderItems`).  The line of plain data is
JSON text of its contents and of nothing else (`Ndjson.Denotes`).
-/

namespace SearchDsl

namespace Ndjson

/-! ### Frames -/

/-- The pieces of a text between its line breaks. -/
def pieces (text : String) : List String := (text.split '\n').toList.map (·.copy)

theorem pieces_joined {lines : List String} (hne : lines ≠ [])
    (noBreak : ∀ l ∈ lines, '\n' ∉ l.toList) :
  pieces (joined lines) = lines ++ [""]
  := by
  have hjoined : joined lines = "\n".intercalate (lines ++ [""]) := by
    rw [String.intercalate_append_of_ne_nil hne (List.cons_ne_nil _ _),
      String.intercalate_singleton, String.append_empty]
    rfl
  have hlast : ∀ l ∈ lines ++ [""], '\n' ∉ l.toList := by
    rw [List.forall_mem_append, List.forall_mem_singleton]
    constructor
    · apply noBreak
    · decide
  rw [hjoined, pieces]
  rw [show "\n" = String.singleton '\n' from rfl, String.toList_split_intercalate hlast, if_neg]
  apply List.append_ne_nil_of_right_ne_nil
  apply List.cons_ne_nil

/-! ### Lines of written values -/

/-- The value is neither text nor octets, so that the usual serializer writes it rather than pass
it on. -/
def IsWritten (v : Value) : Prop := v.text? = none ∧ ∀ octets, v ≠ .bytes octets

/-- The text stands on one line and is not empty. -/
def IsFrame (text : String) : Prop := text ≠ "" ∧ Json.Visible text.toList

theorem isFrame_compact (j : Json) :
  IsFrame j.compact
  := by
  have htext : j.compact.toList = Json.chars .compact j := String.toList_ofList
  constructor
  · intro hempty
    rw [hempty] at htext
    apply Json.chars_ne_nil .compact j htext.symm
  · rw [htext]
    apply Json.visible_chars Json.Style.visible_compact

theorem encode_compact {v : Value} (h : IsWritten v) :
  Serializer.compact.encode v =
    Serializer.ofJson (Json.chars .compact) .unencodable (v.toJson? Value.converted?)
  := by
  obtain ⟨htext, hoctets⟩ := h
  cases v with
  | str s => cases htext
  | action a => cases htext
  | bytes octets => exact absurd rfl (hoctets octets)
  | _ => rfl

theorem line_of_toJson? {v : Value} (h : IsWritten v) {j : Json}
    (hj : v.toJson? Value.converted? = some j) :
  line .compact v = pure (.str j.compact)
  := by
  have hencode : Serializer.compact.encode v = pure (.text j.compact) := by
    rw [encode_compact h, hj]
    rfl
  rw [line, hencode]
  rfl

theorem line_of_toJson?_none {v : Value} (h : IsWritten v)
    (hnone : v.toJson? Value.converted? = none) :
  line .compact v = .fail (refusal v)
  := by
  have hencode : Serializer.compact.encode v = .fail .unencodable := by
    rw [encode_compact h, hnone]
    rfl
  rw [line, hencode]
  rfl

/-- Where a value that is written has a line at all, it stands for JSON data. -/
theorem exists_toJson?_of_gives {v w : Value} (h : IsWritten v) {calls : Calls}
    (hw : Build.Gives (line .compact v) calls w) :
  ∃ j, v.toJson? Value.converted? = some j
  := by
  cases hj : v.toJson? Value.converted? with
  | none =>
    obtain ⟨earlier, hresult⟩ := hw
    rw [line_of_toJson?_none h hj] at hresult
    cases hresult
  | some j => use j

theorem exists_toJson?_of_render {values : List Value} (each : ∀ v ∈ values, IsWritten v)
    {calls : Calls} {payload : String} (h : (render .compact values calls).result = .ok payload) :
  ∀ v ∈ values, ∃ j, v.toJson? Value.converted? = some j
  := by
  intro v hv
  obtain ⟨lines, hlines, -⟩ := Build.exists_of_bind_ok h
  obtain ⟨w, -, hw⟩ := exists_of_forall₂ (Build.gives_of_mapM hlines).flip v hv
  apply exists_toJson?_of_gives (each v hv) hw

theorem render_of_texts {s : Serializer} {values : List Value} {texts : List String}
    (h : values.mapM (line s) = pure (texts.map Value.str)) :
  render s values = pure (joined texts)
  := by
  have hlineTexts : (texts.map Value.str).mapM lineText = .ok texts := by
    rw [List.mapM_map]
    apply List.mapM_pure.trans
    rw [List.map_id']
    rfl
  rw [render, h, pure_bind, hlineTexts]
  rfl

/-- The payload of values with texts for lines is joined from these. -/
theorem render_of_lines {s : Serializer} {R : Value → String → Prop} {values : List Value}
    (each : ∀ v ∈ values, ∃ text, line s v = pure (.str text) ∧ R v text) :
  ∃ texts, render s values = pure (joined texts) ∧ List.Forall₂ R values texts
  := by
  obtain ⟨texts, htexts, hall⟩ := exists_mapM_eq_pure each
  use texts, render_of_texts htexts

/-- Where values that are written stand for JSON data, they have a payload, and their lines are
frames. -/
theorem render_of_toJson? {values : List Value} (each : ∀ v ∈ values, IsWritten v)
    (data : ∀ v ∈ values, ∃ j, v.toJson? Value.converted? = some j) :
  ∃ texts, render .compact values = pure (joined texts) ∧
    List.Forall₂ (fun v text => line .compact v = pure (.str text) ∧ IsFrame text) values texts
  := by
  apply render_of_lines
  intro v hv
  obtain ⟨j, hj⟩ := data v hv
  have hline := line_of_toJson? (each v hv) hj
  use j.compact, hline, hline
  apply isFrame_compact

/-- There is a payload with the usual serializer if and only if all values stand for JSON data. -/
theorem exists_renderItems_iff {values : List Value} {i : Identity} {calls : Calls}
    (each : ∀ v ∈ values, IsWritten v) :
  (∃ payload, (renderItems (Serializer.ofValue .null) (.list values i) calls).result = .ok payload)
    ↔ ∀ v ∈ values, ∃ j, v.toJson? Value.converted? = some j
  := by
  constructor
  · rintro ⟨payload, h⟩
    apply exists_toJson?_of_render each h
  · intro data
    obtain ⟨texts, htexts, -⟩ := render_of_toJson? each data
    use joined texts
    change (render .compact values calls).result = _
    rw [htexts]
    rfl

theorem pieces_of_frames {texts : List String} (hne : texts ≠ [])
    (each : ∀ text ∈ texts, IsFrame text) :
  pieces (joined texts) = texts ++ [""]
  := by
  apply pieces_joined hne
  intro text htext
  apply (each text htext).2.noLineBreak

/-- Where the values of a list are written and there is a payload with the usual serializer, their
lines are frames, and the payload taken apart at its line breaks gives them back, with an empty
piece at the end. -/
theorem pieces_of_renderItems {values : List Value} {i : Identity} {calls : Calls}
    {payload : String} (each : ∀ v ∈ values, IsWritten v)
    (h : (renderItems (Serializer.ofValue .null) (.list values i) calls).result = .ok payload) :
  ∃ texts, List.Forall₂ (fun v text => line (Serializer.ofValue .null) v = pure (.str text) ∧
      IsFrame text) values texts ∧
    (values ≠ [] → pieces payload = texts ++ [""] ∧
      (pieces payload).length = values.length + 1) ∧
    (values = [] → payload = "\n")
  := by
  change (render .compact values calls).result = .ok payload at h
  obtain ⟨texts, hrender, hall⟩ := render_of_toJson? each (exists_toJson?_of_render each h)
  obtain rfl : joined texts = payload := by
    rw [hrender] at h
    apply Except.ok.inj h
  use texts, hall
  constructor
  · intro hne
    have htexts : texts ≠ [] := by
      rintro rfl
      apply hne (List.forall₂_nil_right_iff.1 hall)
    have hpieces : pieces (joined texts) = texts ++ [""] := by
      apply pieces_of_frames htexts
      intro text htext
      obtain ⟨v, -, -, hframe⟩ := exists_of_forall₂ hall text htext
      apply hframe
    use hpieces
    rw [hpieces, List.length_append, hall.length_eq]
    rfl
  · rintro rfl
    obtain rfl : texts = [] := List.forall₂_nil_left_iff.1 hall
    rfl

/-- Lines with what is not a number, with line breaks and separators in a text and in a name, and
with values that are converted. -/
theorem pieces_of_awkward_lines :
  ∃ payload texts, (renderItems (Serializer.ofValue .null) (.list [.float (0.0 / 0.0),
      .dict [("one\ntwo", .str "three\u2028four\r\n"),
        (.null, .decimal (.notANumber false false []))],
      .tuple [.dateTime ⟨⟨2024, 2, 29⟩, ⟨23, 59, 0, 0⟩, none⟩, .uuid ⟨7⟩]])
      fun _ _ _ => .of (.ok .null)).result = .ok payload ∧
    pieces payload = texts ++ [""] ∧ (pieces payload).length = 4 ∧
    ∀ text ∈ texts, IsFrame text
  := by
  let values : List Value := [.float (0.0 / 0.0),
    .dict [("one\ntwo", .str "three\u2028four\r\n"),
      (.null, .decimal (.notANumber false false []))],
    .tuple [.dateTime ⟨⟨2024, 2, 29⟩, ⟨23, 59, 0, 0⟩, none⟩, .uuid ⟨7⟩]]
  let calls : Calls := fun _ _ _ => .of (.ok .null)
  have hwritten : ∀ v ∈ values, IsWritten v := by
    simp [values, IsWritten, Value.text?]
  obtain ⟨payload, hpayload⟩ : ∃ payload, (renderItems (Serializer.ofValue .null)
      (.list values) calls).result = .ok payload := ⟨_, rfl⟩
  obtain ⟨texts, hall, hpieces, -⟩ := pieces_of_renderItems hwritten hpayload
  obtain ⟨hsplit, hlength⟩ := hpieces (List.cons_ne_nil _ _)
  use payload, texts, hpayload, hsplit, hlength
  intro text htext
  obtain ⟨v, -, -, hframe⟩ := exists_of_forall₂ hall text htext
  apply hframe

/-! ### Lines of plain data -/

/-- The text is JSON text of the contents of a value.  Whatever is read from it is that data. -/
def Denotes (text : String) (v : Value) : Prop :=
  ∃ j, Json.IsText text.toList j ∧ (∀ k, Json.IsText text.toList k → k = j) ∧
    Json.parse text.toList = some j ∧ j.value = v.contents

theorem isWritten_of_plain {v : Value} (h : v.Plain) (hv : ∀ s, v ≠ .str s) :
  IsWritten v
  := by
  cases h with
  | str s => exact absurd rfl (hv s)
  | _ => exact ⟨rfl, fun _ => nofun⟩

/-- The line of plain data denotes it, and there is no line break in it. -/
theorem line_of_plain {v : Value} (h : v.Plain) (hv : ∀ s, v ≠ .str s) :
  ∃ text : String, line .compact v = pure (.str text) ∧ Denotes text v ∧ '\n' ∉ text.toList
  := by
  obtain ⟨j, hj, hexact, hvalue⟩ := h.toJson? Value.converted?
  have htext := Json.isText_chars hexact
  use j.compact, line_of_toJson? (isWritten_of_plain h hv) hj
  constructor
  · rw [Denotes, Json.compact, String.toList_ofList]
    use j, htext
    constructor
    · intro k hk
      apply Json.IsText.unique hk htext
    · use Json.parse_of_isText htext
  · apply (isFrame_compact j).2.noLineBreak

/-- The payload of plain data is joined from lines that denote the data, one by one. -/
theorem render_of_plain {values : List Value} (each : ∀ v ∈ values, v.Plain ∧ ∀ s, v ≠ .str s) :
  ∃ texts, render .compact values = pure (joined texts) ∧
    List.Forall₂ (fun v text => Denotes text v ∧ '\n' ∉ text.toList) values texts
  := by
  apply render_of_lines
  intro v hv
  apply line_of_plain (each v hv).1 (each v hv).2

/-! ### Serializers that call nothing -/

/-- The serializer encodes every value without calling anything. -/
def CallsNothing (s : Serializer) : Prop := ∀ v, (s.encode v).CallsNothing

theorem callsNothing_compact : CallsNothing .compact := by
  intro v
  cases v with
  | str s => apply Build.CallsNothing.pure
  | action a => apply Build.CallsNothing.pure
  | bytes octets => apply Build.CallsNothing.pure
  | _ => apply Build.CallsNothing.lift

theorem callsNothing_ofEncoding (e : Encoding) :
  CallsNothing (.ofEncoding e)
  := by
  cases e with
  | compact => apply callsNothing_compact
  | sorted =>
    intro v
    apply Build.CallsNothing.lift
  | refusing cause =>
    intro v
    apply Build.CallsNothing.lift

/-- A serializer that is left out or is an encoding calls nothing; any other value is asked. -/
theorem callsNothing_ofValue {v : Value} (h : v.truthy = false ∨ ∃ e i, v = .encoding e i) :
  CallsNothing (.ofValue v)
  := by
  obtain hfalse | ⟨e, i, rfl⟩ := h
  · unfold Serializer.ofValue
    rw [hfalse]
    apply callsNothing_compact
  · apply callsNothing_ofEncoding

theorem CallsNothing.line {s : Serializer} (h : CallsNothing s) (v : Value) :
  (line s v).CallsNothing
  := by
  apply Build.CallsNothing.bind
  · intro calls others
    unfold Build.mapFault
    rw [h v calls others]
  · intro encoded
    cases encoded with
    | text t => apply Build.CallsNothing.pure
    | octets octets =>
      dsimp only
      split
      · apply Build.CallsNothing.pure
      · apply Build.CallsNothing.lift
    | other answer => apply Build.CallsNothing.pure

/-- What is written without calls does not depend on what calls come to. -/
theorem CallsNothing.render {s : Serializer} (h : CallsNothing s) (values : List Value) :
  (render s values).CallsNothing
  := by
  apply Build.CallsNothing.bind
  · apply Build.CallsNothing.mapM
    apply h.line
  · intro lines
    apply Build.CallsNothing.bind
    · apply Build.CallsNothing.lift
    · intro texts
      apply Build.CallsNothing.pure

end Ndjson

end SearchDsl
