import SearchDsl.Proofs.Bulk.Decoding
import SearchDsl.Proofs.Ndjson.Parts

/-!
# Bulk requests in parts

A bulk request may be composed in parts: the operations of the whole are those of the parts, one
after the other (`Bulk.run_flatten`), and every part keeps the serializer.  With a steady serializer
the payload of the whole then is that of the parts, one after the other (`Bulk.payload_of_parts`).
That takes a part to begin with, since a request without operations has a payload too, and a fault
of the parts may be another one than that of the whole, where a serializer answers with what is no
text (`Bulk.not_payload_of_parts`).
-/

namespace SearchDsl

namespace Bulk

/-! ### Runs in parts -/

theorem yields_encoding (encoding : Value) (steps : List Step) :
  Build.Yields (fun b => b.encoding = encoding) ((new encoding).run steps)
  := by
  rw [run_eq]
  apply Build.Yields.bind
  intro os
  apply Build.Yields.pure
  rfl

/-- A run adds to a request what it makes of none. -/
theorem run_after (b : Bulk) (steps : List Step) :
  b.run steps =
    (fun part => ⟨b.operations ++ part.operations, b.encoding⟩) <$> (new b.encoding).run steps
  := by
  rw [run_eq, run_eq, map_bind]
  simp only [map_pure]
  rfl

/-- The operations of a run are those of its parts. -/
theorem run_flatten (encoding : Value) (parts : List (List Step)) :
  (new encoding).run parts.flatten =
    (fun bs => ⟨bs.flatMap operations, encoding⟩) <$> parts.mapM (new encoding).run
  := by
  induction parts with
  | nil => rfl
  | cons part parts ih =>
    have hrest : (new encoding).run (part ++ parts.flatten) =
        (new encoding).run part >>= fun b => b.run parts.flatten := by
      apply List.foldlM_append
    rw [List.flatten_cons, hrest, List.mapM_cons, map_bind]
    apply (yields_encoding encoding part).bind_congr
    intro b hb
    rw [run_after, hb, ih, map_bind, ← comp_map]
    rw [map_eq_pure_bind]
    rfl

/-! ### Lines in parts -/

/-- A request made by some steps has lines. -/
theorem yields_lines (encoding : Value) {steps : List Step} (hne : steps ≠ []) :
  Build.Yields (fun b => ∃ ls, b.lines = .ok ls ∧ ls ≠ []) ((new encoding).run steps)
  := by
  intro calls b h
  obtain ⟨os, rfl, hgives⟩ := exists_operations h
  obtain ⟨lss, hlss, hlength, -⟩ := exists_lines (hasAction_of_gives hgives)
  use lss.flatten.map Value.copy, lines_toValue hlss encoding
  have hcount := List.count_le_length (a := Action.delete) (l := steps.map Step.action)
  have hsome := List.length_pos_of_ne_nil hne
  rw [List.length_map] at hlength hcount
  apply List.ne_nil_of_length_pos
  rw [List.length_map]
  omega

theorem lines_eq_ok_iff {b : Bulk} {ls : List Value} :
  b.lines = .ok ls ↔
    ∃ lss, b.operations.mapM linesOf = .ok lss ∧ lss.flatten.map State.snapshot = ls
  := by
  rw [lines]
  cases b.operations.mapM linesOf with
  | error fault =>
    constructor
    · intro h
      cases h
    · rintro ⟨lss, hlss, -⟩
      cases hlss
  | ok lss =>
    constructor
    · intro h
      use lss, rfl, Except.ok.inj h
    · rintro ⟨lss', hlss, rfl⟩
      obtain rfl := Except.ok.inj hlss
      rfl

/-- The lines of a request are those of its parts. -/
theorem lines_flatMap {bs : List Bulk} {lss : List (List Value)}
    (h : List.Forall₂ (fun b ls => b.lines = .ok ls) bs lss) (encoding : Value) :
  (⟨bs.flatMap operations, encoding⟩ : Bulk).lines = .ok lss.flatten
  := by
  induction h with
  | nil => rfl
  | @cons b _ bs _ hb _ ih =>
    obtain ⟨ls, hls, rfl⟩ := lines_eq_ok_iff.1 hb
    obtain ⟨ks, hks, hrest⟩ := lines_eq_ok_iff.1 ih
    change (bs.flatMap operations).mapM linesOf = .ok ks at hks
    apply lines_eq_ok_iff.2
    use ls ++ ks
    constructor
    · change (b.operations ++ bs.flatMap operations).mapM linesOf = _
      rw [mapM_append_of_ok hls, hks]
      rfl
    · rw [List.flatten_append, List.map_append, hrest, List.flatten_cons]

/-- The payload of a request is that of its lines. -/
theorem result_build_of_lines {b : Bulk} {ls : List Value} (h : b.lines = .ok ls) (calls : Calls) :
  (b.build calls).result = Ndjson.payload (.ofValue b.encoding) calls ls
  := by
  rw [build, h]
  rfl

/-! ### Payloads in parts -/

/-- What a request and its parts have to do with one another, where `encoding` is the serializer of
all of them: the payload of the request is that of its parts, one after the other. -/
structure BuiltOf (encoding : Value) (calls : Calls) (b : Bulk) (parts : List Bulk) : Prop where
  encoding_eq : b.encoding = encoding ∧ ∀ part ∈ parts, part.encoding = encoding
  payload_iff : ∀ payload, (b.build calls).result = .ok payload ↔
    ∃ payloads, List.Forall₂ (fun part p => (part.build calls).result = .ok p) parts payloads ∧
      payload = String.join payloads

theorem builtOf_of_lines {encoding : Value} {calls : Calls}
    (h : (Serializer.ofValue encoding).Steady calls) {bs : List Bulk} (hne : bs ≠ [])
    (each : ∀ b ∈ bs, b.encoding = encoding ∧ ∃ ls, b.lines = .ok ls ∧ ls ≠ []) :
  BuiltOf encoding calls ⟨bs.flatMap operations, encoding⟩ bs
  := by
  constructor
  · use rfl
    intro b hb
    apply (each b hb).1
  · intro payload
    have hlines : ∀ b ∈ bs, ∃ ls, b.lines = pure (id ls) ∧
        b.encoding = encoding ∧ b.lines = .ok ls ∧ ls ≠ [] := by
      intro b hb
      obtain ⟨hencoding, ls, hls, hsome⟩ := each b hb
      use ls, hls
    obtain ⟨lss, -, hall⟩ := exists_mapM_eq_pure hlines
    have hwhole := lines_flatMap (hall.imp fun _ _ h => h.2.1) encoding
    have hsome : lss ≠ [] := by
      rintro rfl
      apply hne (List.forall₂_nil_right_iff.1 hall)
    have hparts : ∀ ls ∈ lss, ls ≠ [] := by
      intro ls hls
      obtain ⟨b, -, -, -, hb⟩ := exists_of_forall₂ hall ls hls
      apply hb
    rw [result_build_of_lines hwhole, Ndjson.payload_flatten h hsome hparts]
    have hbuild : List.Forall₂ (fun (b : Bulk) ls => ∀ p, (b.build calls).result = .ok p ↔
        Ndjson.payload (.ofValue encoding) calls ls = .ok p) bs lss := by
      apply hall.imp
      rintro b ls ⟨rfl, hls, -⟩ p
      rw [result_build_of_lines hls]
    simp only [forall₂_congr hbuild]

/-- With a steady serializer the first line that fails decides the fault of a payload, and lines
that are no texts cannot be joined.  The payload of two lists one after the other is that of the
one with that of the other after it.  So the payload of a request is that of its parts, one after
the other, where there is a part and all of them have steps. -/
theorem payload_of_parts {encoding : Value} {calls : Calls}
    (h : (Serializer.ofValue encoding).Steady calls) :
  (∀ values fault, Ndjson.payload (.ofValue encoding) calls values = .error fault ↔
    Ndjson.FailsFirst (.ofValue encoding) calls values fault ∨
      Ndjson.HasNoText (.ofValue encoding) calls values ∧ fault = .wrongType) ∧
  (∀ a b, Ndjson.InParts (.ofValue encoding) calls a b) ∧
  ∀ parts : List (List Step), parts ≠ [] → (∀ part ∈ parts, part ≠ []) →
    Build.Matches (BuiltOf encoding calls) ((new encoding).run parts.flatten)
      (parts.mapM (new encoding).run)
  := by
  constructor
  · intro values fault
    apply Ndjson.payload_error_iff h
  constructor
  · apply Ndjson.inParts_of_steady h
  · intro parts hne each
    have hbuilt : Build.Yields (fun bs : List Bulk => bs ≠ [] ∧
        ∀ b ∈ bs, b.encoding = encoding ∧ ∃ ls, b.lines = .ok ls ∧ ls ≠ [])
        (parts.mapM (new encoding).run) := by
      intro others bs hbs
      have hgives := Build.gives_of_mapM hbs
      constructor
      · rintro rfl
        apply hne (List.forall₂_nil_right_iff.1 hgives)
      · intro b hb
        obtain ⟨part, hpart, earlier, hrun⟩ := exists_of_forall₂ hgives b hb
        exact ⟨yields_encoding encoding part _ b hrun,
          yields_lines encoding (each part hpart) _ b hrun⟩
    rw [run_flatten]
    apply hbuilt.matches.map_left
    rintro bs _ ⟨rfl, hsome, heach⟩
    apply builtOf_of_lines h hsome heach

/-- A part of two operations and one of a single operation, with an encoding that is kept. -/
theorem payload_of_two_parts :
  ∃ b c d payload payload',
    (Serializer.ofValue (.encoding .sorted .new)).Steady (Script.callIn [] .empty) ∧
    ((new (.encoding .sorted .new)).run [.delete (.single "_id" (.int 1)),
      .update (.single "doc" .null)] (Script.callIn [] .empty)).result = .ok b ∧
    ((new (.encoding .sorted .new)).run [.index (.str "one\ntwo") .null]
      (Script.callIn [] .empty)).result = .ok c ∧
    ((new (.encoding .sorted .new)).run [.delete (.single "_id" (.int 1)),
      .update (.single "doc" .null), .index (.str "one\ntwo") .null]
      (Script.callIn [] .empty)).result = .ok d ∧
    (b.build (Script.callIn [] .empty)).result = .ok payload ∧
    (c.build (Script.callIn [] .empty)).result = .ok payload' ∧
    (d.build (Script.callIn [] .empty)).result = .ok (payload ++ payload')
  := by
  have hsteady : (Serializer.ofValue (.encoding .sorted .new)).Steady (Script.callIn [] .empty) :=
    Serializer.steady_of_callsNothing (Ndjson.callsNothing_ofEncoding .sorted) _
  obtain ⟨-, -, ⟨fault, hfail, -⟩ | ⟨d, bs, hd, hbs, hbuilt⟩⟩ :=
    (payload_of_parts hsteady).2.2 [[.delete (.single "_id" (.int 1)),
      .update (.single "doc" .null)], [.index (.str "one\ntwo") .null]] (by simp) (by simp)
      (Script.callIn [] .empty)
  · cases hfail
  · obtain rfl := Except.ok.inj hbs
    refine ⟨_, _, d, _, _, hsteady, rfl, rfl, hd, rfl, rfl, ?_⟩
    apply (hbuilt.payload_iff _).2
    refine ⟨_, .cons rfl (.cons rfl .nil), ?_⟩
    rfl

/-- Answers with the very value that it is to encode. -/
def echo : Value := .query "term" [("dumps", .function "line" (.ref "line") none)]

theorem steady_echo : (Serializer.ofValue echo).Steady (Script.callIn [] .empty) := by
  apply Serializer.steady_of_changes
  intro v
  rfl

/-- The fault of the first list need not be that of both together, as where its lines are no texts
but a line of the second list fails.  And without parts there is no payload, while a request without
operations has one. -/
theorem not_payload_of_parts :
  (¬∀ (encoding : Value) (calls : Calls), (Serializer.ofValue encoding).Steady calls →
    ∀ (a b : List Value) (fault : Fault),
      Ndjson.payload (.ofValue encoding) calls a = .error fault →
        Ndjson.payload (.ofValue encoding) calls (a ++ b) = .error fault) ∧
  ¬∀ (encoding : Value) (calls : Calls), (Serializer.ofValue encoding).Steady calls →
    ∀ parts : List (List Step), (∀ part ∈ parts, part ≠ []) →
      Build.Matches (BuiltOf encoding calls) ((new encoding).run parts.flatten)
        (parts.mapM (new encoding).run)
  := by
  constructor
  · intro h
    have hfirst : Ndjson.payload (.ofValue echo) (Script.callIn [] .empty) [.null] =
        .error .wrongType := rfl
    have hboth : Ndjson.payload (.ofValue echo) (Script.callIn [] .empty) [.null, .bytes [255]] =
        .error .malformedText := rfl
    have hsame := h echo _ steady_echo [.null] [.bytes [255]] _ hfirst
    cases hboth.symm.trans hsame
  · intro h
    have hsteady : (Serializer.ofValue .null).Steady (Script.callIn [] .empty) :=
      Serializer.steady_of_callsNothing Ndjson.callsNothing_compact _
    obtain ⟨-, -, ⟨fault, hfail, -⟩ | ⟨b, bs, hb, hbs, hbuilt⟩⟩ := h .null _ hsteady [] nofun
      (Script.callIn [] .empty)
    · cases hfail
    · obtain rfl := Except.ok.inj hb
      obtain rfl := Except.ok.inj hbs
      obtain ⟨payloads, hpayloads, hjoin⟩ := (hbuilt.payload_iff "\n").1 rfl
      obtain rfl := List.forall₂_nil_left_iff.1 hpayloads
      revert hjoin
      decide

end Bulk

end SearchDsl
