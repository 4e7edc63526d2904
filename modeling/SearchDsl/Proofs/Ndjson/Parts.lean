import SearchDsl.Proofs.Ndjson

/-!
# Payloads in parts

A serializer is steady (`Serializer.Steady`) when encoding a value comes to the same, whatever it
has encoded before.  The payload of some values then is what comes of their lines, taken by
themselves (`Ndjson.payload_of_lines`): the first line that fails decides the fault, and where none
fails but one is no text, the lines cannot be joined (`Ndjson.payload_error_iff`).  So the payload
of two lists one after the other is the payload of the first with that of the second after it, and
fails where one of them does (`Ndjson.inParts_of_steady`).  No values at all have a payload too,
which is no line but a line break, so that it does not count in front of others or after them.
-/

namespace SearchDsl

namespace Serializer

/-- The changes in place are those of encoding some values one after the other. -/
inductive Leaves (s : Serializer) (calls : Calls) : List Change → Prop
  | nothing : Leaves s calls []
  | encoded {earlier : List Change} (h : Leaves s calls earlier) (v : Value) :
      Leaves s calls (earlier ++ (s.encode v (calls.after earlier)).changes)

/-- Encoding a value comes to the same, whatever has been encoded before. -/
def Steady (s : Serializer) (calls : Calls) : Prop :=
  ∀ v earlier, s.Leaves calls earlier →
    (s.encode v (calls.after earlier)).result = (s.encode v calls).result

/-- What is changed by nothing is steady. -/
theorem steady_of_changes {s : Serializer} {calls : Calls}
    (h : ∀ v, (s.encode v calls).changes = []) :
  s.Steady calls
  := by
  intro v earlier hleaves
  have hnone : earlier = [] := by
    induction hleaves with
    | nothing => rfl
    | encoded _ w ih =>
      subst ih
      apply h w
  subst hnone
  rfl

theorem steady_of_callsNothing {s : Serializer} (h : Ndjson.CallsNothing s) (calls : Calls) :
  s.Steady calls
  := by
  intro v earlier _
  rw [h v (calls.after earlier) calls]

end Serializer

namespace Ndjson

variable {s : Serializer} {calls : Calls}

/-- What is decoded of the answer of a serializer. -/
def decoded : Encoded → Except Fault Value
  | .text t => .ok (.str t)
  | .octets octets =>
    match decodeUtf8? octets with
    | some t => .ok (.str t)
    | none => .error .malformedText
  | .other answer => .ok answer

/-- The fault of a line whose serializer fails. -/
def reported (v : Value) (fault : Fault) : Fault :=
  if fault.isOfLine then refusal v else fault

theorem line_eq (s : Serializer) (v : Value) :
  line s v = (s.encode v).mapFault (reported v) >>= fun answer => liftM (decoded answer)
  := by
  apply bind_congr
  intro answer
  cases answer with
  | octets octets =>
    dsimp only [decoded]
    cases decodeUtf8? octets
    all_goals rfl
  | _ => rfl

/-- The line of a value changes what encoding it changes, and comes to what that comes to. -/
theorem line_apply (s : Serializer) (v : Value) (calls : Calls) :
  line s v calls = ⟨(s.encode v calls).warnings, (s.encode v calls).changes,
    ((s.encode v calls).result.mapError (reported v)).bind decoded⟩
  := by
  rw [line_eq, Build.bind_lift_apply]
  rfl

/-! ### Payloads of a steady serializer -/

/-- What the payload of the items of a list comes to. -/
def payload (s : Serializer) (calls : Calls) (values : List Value) : Except Fault String :=
  (renderItems s (.list values) calls).result

/-- What the line of a value comes to. -/
def lineOf (s : Serializer) (calls : Calls) (v : Value) : Except Fault Value :=
  (line s v calls).result

theorem mapM_line (h : s.Steady calls) (values : List Value) {earlier : List Change}
    (hearlier : s.Leaves calls earlier) :
  (values.mapM (line s) (calls.after earlier)).result = values.mapM (lineOf s calls)
  := by
  induction values generalizing earlier with
  | nil => rfl
  | cons v values ih =>
    have hline : (line s v (calls.after earlier)).result = lineOf s calls v := by
      rw [lineOf, line_apply, line_apply, h v earlier hearlier]
    rw [List.mapM_cons, List.mapM_cons, Build.result_bind, hline]
    cases lineOf s calls v with
    | error fault => rfl
    | ok w =>
      have hleaves := hearlier.encoded v
      have hchanges : (line s v (calls.after earlier)).changes =
          (s.encode v (calls.after earlier)).changes := by
        rw [line_apply]
      have hrest := ih hleaves
      change ((values.mapM (line s) >>= fun ws => pure (w :: ws)) _).result = _
      rw [Calls.after_after, hchanges, Build.result_bind, hrest]
      rfl

/-- The payload of values with lines is joined from these. -/
theorem payload_of_lines (h : s.Steady calls) {values lines : List Value}
    (hlines : values.mapM (lineOf s calls) = .ok lines) :
  payload s calls values = (lines.mapM lineText).map joined
  := by
  have hmap : (values.mapM (line s) calls).result = .ok lines :=
    (mapM_line h values .nothing).trans hlines
  change (render s values calls).result = _
  rw [render, Build.result_bind_of_ok hmap, Build.result_bind]
  cases lines.mapM lineText
  all_goals rfl

theorem payload_of_fault (h : s.Steady calls) {values : List Value} {fault : Fault}
    (hlines : values.mapM (lineOf s calls) = .error fault) :
  payload s calls values = .error fault
  := by
  have hmap : (values.mapM (line s) calls).result = .error fault :=
    (mapM_line h values .nothing).trans hlines
  change (render s values calls).result = _
  rw [render, Build.result_bind, hmap]
  rfl

/-! ### Which fault -/

/-- The first of some values whose line fails does so with the given fault. -/
def FailsFirst (s : Serializer) (calls : Calls) (values : List Value) (fault : Fault) : Prop :=
  ∃ before v after, values = before ++ v :: after ∧
    (∀ w ∈ before, ∃ l, lineOf s calls w = .ok l) ∧ lineOf s calls v = .error fault

/-- All values have lines, but one of these is no text. -/
def HasNoText (s : Serializer) (calls : Calls) (values : List Value) : Prop :=
  (∀ v ∈ values, ∃ l, lineOf s calls v = .ok l) ∧
    ∃ v ∈ values, ∃ l, lineOf s calls v = .ok l ∧ l.text? = none

theorem failsFirst_iff {values : List Value} {fault : Fault} :
  FailsFirst s calls values fault ↔ values.mapM (lineOf s calls) = .error fault
  := mapM_eq_error_iff.symm

theorem hasNoText_iff {values : List Value} :
  HasNoText s calls values ↔
    ∃ lines, values.mapM (lineOf s calls) = .ok lines ∧ ∃ l ∈ lines, l.text? = none
  := by
  constructor
  · rintro ⟨hall, v, hv, l, hl, hnone⟩
    cases hlines : values.mapM (lineOf s calls) with
    | error fault =>
      obtain ⟨before, w, after, rfl, -, hw⟩ := mapM_eq_error_iff.1 hlines
      obtain ⟨k, hk⟩ := hall w (by simp)
      rw [hw] at hk
      cases hk
    | ok lines =>
      obtain ⟨k, hk, hkl⟩ := exists_of_forall₂ (mapM_eq_ok_iff.1 hlines).flip v hv
      obtain rfl := Except.ok.inj (hl.symm.trans hkl)
      use lines, rfl, l
  · rintro ⟨lines, hlines, l, hl, hnone⟩
    have hall := mapM_eq_ok_iff.1 hlines
    obtain ⟨v, hv, hvl⟩ := exists_of_forall₂ hall l hl
    constructor
    · intro w hw
      obtain ⟨k, -, hk⟩ := exists_of_forall₂ hall.flip w hw
      use k, hk
    · use v, hv, l

theorem lineText_error_iff {l : Value} {fault : Fault} :
  lineText l = .error fault ↔ l.text? = none ∧ fault = .wrongType
  := by
  unfold lineText
  cases l.text? with
  | none => simp [eq_comm]
  | some t => simp

theorem mapM_lineText_error_iff {lines : List Value} {fault : Fault} :
  lines.mapM lineText = .error fault ↔ (∃ l ∈ lines, l.text? = none) ∧ fault = .wrongType
  := by
  constructor
  · intro h
    obtain ⟨before, l, after, rfl, -, hl⟩ := mapM_eq_error_iff.1 h
    obtain ⟨hnone, rfl⟩ := lineText_error_iff.1 hl
    use ⟨l, by simp, hnone⟩
  · rintro ⟨⟨l, hl, hnone⟩, rfl⟩
    cases hlines : lines.mapM lineText with
    | error fault =>
      obtain ⟨before, k, after, rfl, -, hk⟩ := mapM_eq_error_iff.1 hlines
      rw [(lineText_error_iff.1 hk).2]
    | ok texts =>
      obtain ⟨t, -, ht⟩ := exists_of_forall₂ (mapM_eq_ok_iff.1 hlines).flip l hl
      rw [lineText_error_iff.2 ⟨hnone, rfl⟩] at ht
      cases ht

/-- The first line that fails decides the fault.  Where none fails, lines that are no texts cannot
be joined. -/
theorem payload_error_iff (h : s.Steady calls) {values : List Value} {fault : Fault} :
  payload s calls values = .error fault ↔
    FailsFirst s calls values fault ∨ HasNoText s calls values ∧ fault = .wrongType
  := by
  rw [failsFirst_iff, hasNoText_iff]
  cases hlines : values.mapM (lineOf s calls) with
  | error cause =>
    rw [payload_of_fault h hlines]
    simp
  | ok lines =>
    rw [payload_of_lines h hlines]
    have herror := @mapM_lineText_error_iff lines fault
    cases htexts : lines.mapM lineText with
    | error cause =>
      rw [htexts] at herror
      simpa [Except.map] using herror
    | ok texts =>
      rw [htexts] at herror
      simpa [Except.map] using herror

/-! ### Two lists one after the other -/

theorem joined_append (texts others : List String) :
  joined (texts ++ others) =
    if texts = [] then joined others
    else if others = [] then joined texts
    else joined texts ++ joined others
  := by
  split_ifs with h h'
  · rw [h, List.nil_append]
  · rw [h', List.append_nil]
  · rw [joined, String.intercalate_append_of_ne_nil h h']
    simp only [joined, String.append_assoc]

/-- Either the first list fails and so do both together, or the second one does, or all lines are
texts. -/
theorem payload_append (h : s.Steady calls) (a b : List Value) :
  (∃ fault, payload s calls a = .error fault ∧ payload s calls (a ++ b) = .error fault) ∨
  (∃ fault, payload s calls b = .error fault ∧ payload s calls (a ++ b) = .error fault ∧
    ((∃ t, payload s calls a = .ok t) ∨ HasNoText s calls a)) ∨
  ∃ texts others, texts.length = a.length ∧ others.length = b.length ∧
    payload s calls a = .ok (joined texts) ∧ payload s calls b = .ok (joined others) ∧
    payload s calls (a ++ b) = .ok (joined (texts ++ others))
  := by
  cases ha : a.mapM (lineOf s calls) with
  | error fault =>
    left
    use fault, payload_of_fault h ha, payload_of_fault h (mapM_append_of_error ha b)
  | ok lines =>
    have hfirst := payload_of_lines h ha
    have htogether := mapM_append_of_ok ha b
    cases hb : b.mapM (lineOf s calls) with
    | error fault =>
      rw [hb] at htogether
      right; left
      use fault, payload_of_fault h hb, payload_of_fault h htogether
      cases htexts : lines.mapM lineText with
      | error cause =>
        right
        apply hasNoText_iff.2 ⟨lines, ha, (mapM_lineText_error_iff.1 htexts).1⟩
      | ok texts =>
        left
        rw [htexts] at hfirst
        use joined texts, hfirst
    | ok others =>
      have hsecond := payload_of_lines h hb
      rw [hb] at htogether
      have hboth := payload_of_lines h htogether
      cases htexts : lines.mapM lineText with
      | error fault =>
        rw [htexts] at hfirst
        rw [mapM_append_of_error htexts] at hboth
        left
        use fault, hfirst, hboth
      | ok texts =>
        rw [htexts] at hfirst
        rw [mapM_append_of_ok htexts] at hboth
        right
        cases hmore : others.mapM lineText with
        | error fault =>
          rw [hmore] at hsecond hboth
          left
          use fault, hsecond, hboth
          left
          use joined texts, hfirst
        | ok more =>
          rw [hmore] at hsecond hboth
          right
          use texts, more
          rw [← (mapM_eq_ok_iff.1 htexts).length_eq, ← (mapM_eq_ok_iff.1 hmore).length_eq,
            ← (mapM_eq_ok_iff.1 ha).length_eq, ← (mapM_eq_ok_iff.1 hb).length_eq]
          exact ⟨rfl, rfl, hfirst, hsecond, hboth⟩

/-- How the payload of two lists one after the other comes from their payloads. -/
structure InParts (s : Serializer) (calls : Calls) (a b : List Value) : Prop where
  /-- It fails where one of them does. -/
  fails_iff : (∃ fault, payload s calls (a ++ b) = .error fault) ↔
    (∃ fault, payload s calls a = .error fault) ∨ ∃ fault, payload s calls b = .error fault
  /-- Where all lines of the first list are texts, its fault comes first. -/
  fault_iff : (∀ v ∈ a, ∀ l, lineOf s calls v = .ok l → l.text? ≠ none) → ∀ fault,
    payload s calls (a ++ b) = .error fault ↔ payload s calls a = .error fault ∨
      (∃ t, payload s calls a = .ok t) ∧ payload s calls b = .error fault
  /-- The one comes after the other, where both have lines. -/
  joined : ∀ t u, payload s calls a = .ok t → payload s calls b = .ok u →
    payload s calls (a ++ b) = .ok (if a = [] then u else if b = [] then t else t ++ u)

theorem inParts_of_steady (h : s.Steady calls) (a b : List Value) :
  InParts s calls a b
  := by
  obtain ⟨fault, ha, hab⟩ | ⟨fault, hb, hab, ha⟩ | ⟨texts, others, hcount, hcount', ha, hb, hab⟩ :=
    payload_append h a b
  · constructor
    · simp [ha, hab]
    · simp [ha, hab]
    · simp [ha]
  · constructor
    · simp [hb, hab]
    · intro htexts cause
      obtain ⟨t, ht⟩ | ⟨-, v, hv, l, hl, hnone⟩ := ha
      · simp [ht, hb, hab]
      · exact absurd hnone (htexts v hv l hl)
    · simp [hb]
  · constructor
    · simp [ha, hb, hab]
    · simp [ha, hb, hab]
    · intro t u ht hu
      obtain rfl := Except.ok.inj (ha.symm.trans ht)
      obtain rfl := Except.ok.inj (hb.symm.trans hu)
      have htexts : texts = [] ↔ a = [] := by
        rw [← List.length_eq_zero_iff, hcount, List.length_eq_zero_iff]
      have hothers : others = [] ↔ b = [] := by
        rw [← List.length_eq_zero_iff, hcount', List.length_eq_zero_iff]
      rw [hab, joined_append]
      simp only [htexts, hothers]

/-! ### Any number of lists -/

theorem payload_append_ok_iff (h : s.Steady calls) {a b : List Value} (ha : a ≠ []) (hb : b ≠ [])
    {text : String} :
  payload s calls (a ++ b) = .ok text ↔
    ∃ t u, payload s calls a = .ok t ∧ payload s calls b = .ok u ∧ text = t ++ u
  := by
  have hparts := inParts_of_steady h a b
  constructor
  · intro htext
    have hnone : ¬∃ fault, payload s calls (a ++ b) = .error fault := by
      simp [htext]
    rw [hparts.fails_iff, not_or] at hnone
    cases hfirst : payload s calls a with
    | error fault => exact absurd ⟨fault, hfirst⟩ hnone.1
    | ok t =>
      cases hsecond : payload s calls b with
      | error fault => exact absurd ⟨fault, hsecond⟩ hnone.2
      | ok u =>
        have hboth := hparts.joined t u hfirst hsecond
        rw [if_neg ha, if_neg hb, htext] at hboth
        use t, u, rfl, rfl, Except.ok.inj hboth
  · rintro ⟨t, u, hfirst, hsecond, rfl⟩
    rw [hparts.joined t u hfirst hsecond, if_neg ha, if_neg hb]

/-- The payload of lists with values, one after the other, are their payloads one after the
other. -/
theorem payload_flatten (h : s.Steady calls) {parts : List (List Value)} (hne : parts ≠ [])
    (each : ∀ part ∈ parts, part ≠ []) {text : String} :
  payload s calls parts.flatten = .ok text ↔
    ∃ texts, List.Forall₂ (fun part t => payload s calls part = .ok t) parts texts ∧
      text = String.join texts
  := by
  induction parts generalizing text with
  | nil => exact absurd rfl hne
  | cons part parts ih =>
    obtain ⟨hpart, hparts⟩ := List.forall_mem_cons.1 each
    rw [List.flatten_cons]
    by_cases hlast : parts = []
    · subst hlast
      rw [List.flatten_nil, List.append_nil]
      constructor
      · intro htext
        use [text], .cons htext .nil
        rw [String.join_cons, String.join_nil, String.append_empty]
      · rintro ⟨texts, hall, rfl⟩
        obtain ⟨t, rest, ht, hrest, rfl⟩ := List.forall₂_cons_left_iff.1 hall
        obtain rfl := List.forall₂_nil_left_iff.1 hrest
        rw [ht, String.join_cons, String.join_nil, String.append_empty]
    · have hflatten : parts.flatten ≠ [] := by
        obtain ⟨other, rest, rfl⟩ := List.exists_cons_of_ne_nil hlast
        rw [List.flatten_cons]
        apply List.append_ne_nil_of_left_ne_nil (hparts other List.mem_cons_self)
      rw [payload_append_ok_iff h hpart hflatten]
      constructor
      · rintro ⟨t, u, ht, hu, rfl⟩
        obtain ⟨texts, hall, rfl⟩ := (ih hlast hparts).1 hu
        use t :: texts, .cons ht hall
        rw [String.join_cons]
      · rintro ⟨texts, hall, rfl⟩
        obtain ⟨t, rest, ht, hrest, rfl⟩ := List.forall₂_cons_left_iff.1 hall
        use t, String.join rest, ht, (ih hlast hparts).2 ⟨rest, hrest, rfl⟩
        rw [String.join_cons]

end Ndjson

end SearchDsl
