import SearchDsl.IndexConfig
import SearchDsl.Proofs.BoolQuery
import SearchDsl.Suggestions

/-!
# Named entries

Calls that file values under names leave every name once, in the order of the first calls, with the
value of the last one (`Entries.FiledBy`).  Suggestions are filed by name.  An index configuration has
three slots, one for the mappings, one for the settings and one in which aliases are filed by name,
and its calls come to parts, which alone matter for what it builds (`IndexConfig.built`).  So two
neighbouring calls for different slots or different aliases may change places, except that the
entries come in another order (`IndexConfig.SameButOrder`).
-/

namespace SearchDsl

namespace Entries

/-! ### Filing by name -/

/-- The entries have the names of the calls, in the order of the first call of each, and under a name
is what `f` makes of the value of the last call. -/
structure FiledBy (f : Value → Value) (calls es : Dict) : Prop where
  names : es.names = calls.names.eraseDups
  last : ∀ before k v after, calls = before ++ (k, v) :: after →
    Named.name k ∉ Entries.names after → es.find? (Named.name k) = some (f v)

theorem filedBy_ofPairs (calls : Dict) :
  FiledBy id calls (ofPairs calls)
  := by
  constructor
  · apply names_ofPairs
  · rintro before k v after rfl hafter
    rw [ofPairs, merge_append, merge_cons, find?_merge_of_notMem hafter, find?_insert_self]
    rfl

/-- Keys that are texts are copied as they are. -/
theorem filedBy_copied {calls : Dict} (h : calls.Texts) :
  FiledBy Value.copy calls (ofPairs calls).copied
  := by
  have htexts : (ofPairs calls).Texts := texts_nil.merge h
  obtain ⟨hnames, hlast⟩ := filedBy_ofPairs calls
  constructor
  · rw [← hnames]
    apply htexts.copy_alike.names
  · intro before k v after hcalls hafter
    obtain ⟨s, hs⟩ := h (k, v) (by simp [hcalls])
    obtain rfl : k = .text s := hs
    have hcopy := find?_copy_text (ofPairs calls) s
    have hfound := hlast before _ v after hcalls hafter
    rw [Key.name_text] at hfound ⊢
    rw [copied, hcopy, hfound]
    rfl

/-- The entries are a copy of those that the calls file; where all keys are texts, these are copied
as they are. -/
structure CopyOf (calls ds : Dict) : Prop where
  copy : ∃ es, FiledBy id calls es ∧ ds = es.copied
  texts : calls.Texts → FiledBy Value.copy calls ds

theorem copyOf_ofPairs (calls : Dict) :
  CopyOf calls (ofPairs calls).copied
  := ⟨⟨_, filedBy_ofPairs calls, rfl⟩, filedBy_copied⟩

/-- Two neighbouring calls for different names may change places, but for the order of the names. -/
theorem perm_ofPairs_swap {k l : Key} (h : Named.name k ≠ Named.name l) (v w : Value)
    (before after : Dict) :
  (ofPairs (before ++ (k, v) :: (l, w) :: after)).Perm
    (ofPairs (before ++ (l, w) :: (k, v) :: after))
  := by
  have hdistinct : (((ofPairs before).insert k v).insert l w).Distinct :=
    ((distinct_ofPairs before).insert k v).insert l w
  rw [ofPairs, ofPairs, merge_append, merge_append, merge_cons, merge_cons, merge_cons, merge_cons]
  apply perm_merge hdistinct
  apply perm_insert_insert (Ne.symm h)

end Entries

/-! ### Suggestions -/

namespace Suggestions

/-- What a step files. -/
def Step.entry (step : Step) : Except Fault (Key × Value) := do
  return (← step.name.key, step.suggester.entry step.text step.options)

theorem run_eq (es : Dict) (steps : List Step) :
  run ⟨.dict es⟩ steps = do return ⟨.dict (es.merge (← steps.mapM Step.entry))⟩
  := by
  induction steps generalizing es with
  | nil => rfl
  | cons step steps ih =>
    unfold run at ih ⊢
    rw [List.foldlM_cons, List.mapM_cons, apply, Step.entry]
    cases step.name.key with
    | error fault => rfl
    | ok k =>
      change List.foldlM apply ⟨.dict (es.insert k (step.suggester.entry step.text step.options))⟩
        steps = _
      rw [ih]
      cases steps.mapM Step.entry
      all_goals rfl

/-- Names that are keys are filed under. -/
theorem exists_entries {steps : List Step} (h : ∀ step ∈ steps, ∃ k, step.name.key = .ok k) :
  ∃ entries, steps.mapM Step.entry = .ok entries
  := by
  have each : ∀ step ∈ steps, ∃ e, step.entry = .ok (id e) ∧ step.name.key = .ok e.1 := by
    intro step hstep
    obtain ⟨k, hk⟩ := h step hstep
    use (k, step.suggester.entry step.text step.options)
    rw [Step.entry, hk]
    exact ⟨rfl, rfl⟩
  obtain ⟨entries, hentries, -⟩ := exists_mapM_eq_pure each
  exact ⟨_, hentries⟩

theorem run_of_entries {steps : List Step} {entries : Dict}
    (h : steps.mapM Step.entry = .ok entries) :
  new.run steps = .ok ⟨.dict (Entries.ofPairs entries)⟩
  := by
  have hrun : new.run steps = do return ⟨.dict (Entries.merge [] (← steps.mapM Step.entry))⟩ :=
    run_eq [] steps
  rw [hrun, h]
  rfl

theorem build_dict (es : Dict) :
  build ⟨.dict es⟩ = .single "suggest" (.dict es.copied)
  := congrArg (Value.single "suggest") (Value.copy_dict es .new)

/-- A step files its own text and its own options, each under the name that its kind of suggester
gives it, and nothing else. -/
inductive Step.Files : Step → Key × Value → Prop
  | term {name : Value} {k : Key} (hname : name.key = .ok k) (text options : Value) :
      Files ⟨.term, name, text, options⟩ (k, .dict [("text", text), ("term", options)])
  | phrase {name : Value} {k : Key} (hname : name.key = .ok k) (text options : Value) :
      Files ⟨.phrase, name, text, options⟩ (k, .dict [("text", text), ("phrase", options)])
  | completion {name : Value} {k : Key} (hname : name.key = .ok k) (start options : Value) :
      Files ⟨.completion, name, start, options⟩
        (k, .dict [("prefix", start), ("completion", options)])

theorem Step.files_of_entry {step : Step} {e : Key × Value} (h : step.entry = .ok e) :
  step.Files e
  := by
  obtain ⟨suggester, name, text, options⟩ := step
  cases hname : name.key with
  | error fault =>
    rw [entry, hname] at h
    cases h
  | ok k =>
    rw [entry, hname] at h
    obtain rfl := Except.ok.inj h
    cases suggester with
    | term => apply Files.term hname
    | phrase => apply Files.phrase hname
    | completion => apply Files.completion hname

theorem files_of_entries {steps : List Step} {entries : Dict}
    (h : steps.mapM Step.entry = .ok entries) :
  List.Forall₂ Step.Files steps entries
  := (mapM_eq_ok_iff.1 h).imp fun _ _ => Step.files_of_entry

end Suggestions

/-! ### Index configurations -/

namespace IndexConfig

/-- Where a step files something. -/
inductive Slot where
  | mappings
  | settings
  | aliases
  deriving DecidableEq

/-- The key of a slot. -/
def Slot.key : Slot → Key
  | .mappings => "mappings"
  | .settings => "settings"
  | .aliases => "aliases"

theorem Slot.key_injective (a b : Slot) (h : Named.name a.key = Named.name b.key) :
  a = b
  := by
  cases a
  all_goals
    cases b
    all_goals first | rfl | exact absurd (Name.text.inj h) (by decide)

/-- Where the step files something. -/
def Step.slot : Step → Slot
  | .mappings _ => .mappings
  | .settings _ => .settings
  | .alias _ _ => .aliases

/-- A part of an index configuration, with the key and the options of an alias. -/
inductive Part where
  | mappings (value : Value)
  | settings (value : Value)
  | named (key : Key) (options : Value)

/-- What a step comes to. -/
def Step.part : Step → Except Fault Part
  | .mappings value => .ok (.mappings value)
  | .settings value => .ok (.settings value)
  | .alias name options => do
    let options ← options.orEmpty.toDict
    return .named (← name.key) options

/-- The slot of a part. -/
def Part.slot : Part → Slot
  | .mappings _ => .mappings
  | .settings _ => .settings
  | .named _ _ => .aliases

/-- The value for a slot that holds one. -/
def Part.value? (slot : Slot) : Part → Option Value
  | .mappings value => if slot = .mappings then some value else none
  | .settings value => if slot = .settings then some value else none
  | .named _ _ => none

/-- The entry of an alias. -/
def Part.alias? : Part → Option (Key × Value)
  | .named key options => some (key, options)
  | _ => none

/-- The values for a slot, in order. -/
def valuesOf (slot : Slot) (parts : List Part) : List Value := parts.filterMap (Part.value? slot)

/-- The entries of the aliases, in order. -/
def aliasesOf (parts : List Part) : Dict := parts.filterMap Part.alias?

/-- What is in a slot: the last value, or the aliases by name. -/
def slotValue (parts : List Part) : Slot → Value
  | .mappings => (valuesOf .mappings parts).getLast?.getD .null
  | .settings => (valuesOf .settings parts).getLast?.getD .null
  | .aliases => .dict (Entries.ofPairs (aliasesOf parts))

/-- The configuration that some parts make: the slots that are used, in the order of their first
use. -/
def document (parts : List Part) : Dict :=
  (parts.map Part.slot).eraseDups.map fun slot => (slot.key, slotValue parts slot)

theorem value?_eq_none {slot : Slot} {part : Part} (h : part.slot ≠ slot) :
  part.value? slot = none
  := by
  cases part with
  | mappings value => exact if_neg (Ne.symm h)
  | settings value => exact if_neg (Ne.symm h)
  | named key options => rfl

theorem alias?_eq_none {part : Part} (h : part.slot ≠ .aliases) :
  part.alias? = none
  := by
  cases part with
  | named key options => exact absurd rfl h
  | _ => rfl

theorem slotValue_concat_of_ne {part : Part} {slot : Slot} (h : slot ≠ part.slot)
    (parts : List Part) :
  slotValue (parts ++ [part]) slot = slotValue parts slot
  := by
  have hvalues : valuesOf slot (parts ++ [part]) = valuesOf slot parts := by
    rw [valuesOf, List.filterMap_append, List.filterMap_cons_none (value?_eq_none (Ne.symm h)),
      List.filterMap_nil, List.append_nil, valuesOf]
  cases slot with
  | mappings => rw [slotValue, hvalues, slotValue]
  | settings => rw [slotValue, hvalues, slotValue]
  | aliases =>
    rw [slotValue, aliasesOf, List.filterMap_append,
      List.filterMap_cons_none (alias?_eq_none (Ne.symm h)), List.filterMap_nil, List.append_nil,
      slotValue, aliasesOf]

/-- One more part changes its own slot and nothing else. -/
theorem document_concat (parts : List Part) (part : Part) :
  document (parts ++ [part]) =
    (document parts).insert part.slot.key (slotValue (parts ++ [part]) part.slot)
  := by
  rw [document, document, List.map_append, List.map_singleton]
  apply Entries.map_eraseDups_concat Slot.key_injective
  intro slot h
  apply slotValue_concat_of_ne h

theorem find?_document (parts : List Part) (slot : Slot) :
  (document parts).find? (Named.name slot.key) =
    if slot ∈ parts.map Part.slot then some (slotValue parts slot) else none
  := by
  rw [document, Entries.find?_map Slot.key_injective]
  simp only [List.mem_eraseDups]

theorem valuesOf_eq_nil_iff {slot : Slot} (h : slot ≠ .aliases) (parts : List Part) :
  valuesOf slot parts = [] ↔ slot ∉ parts.map Part.slot
  := by
  have hvalue : ∀ part : Part, part.value? slot = none ↔ part.slot ≠ slot := by
    intro part
    cases part with
    | named key options => exact iff_of_true rfl (Ne.symm h)
    | _ => simp [Part.value?, Part.slot, eq_comm]
  rw [valuesOf, List.filterMap_eq_nil_iff]
  simp only [hvalue, List.mem_map, not_exists, not_and, ne_eq]

theorem aliasesOf_eq_nil_iff (parts : List Part) :
  aliasesOf parts = [] ↔ .aliases ∉ parts.map Part.slot
  := by
  have halias : ∀ part : Part, part.alias? = none ↔ part.slot ≠ .aliases := by
    intro part
    cases part
    all_goals simp [Part.alias?, Part.slot]
  rw [aliasesOf, List.filterMap_eq_nil_iff]
  simp only [halias, List.mem_map, not_exists, not_and, ne_eq]

/-! ### Runs -/

/-- The aliases are on the way of a path, whether or not there are any. -/
theorem wayOf_aliases (parts : List Part) :
  State.wayOf (((document parts).find? "aliases").getD .null) =
    .dict (Entries.ofPairs (aliasesOf parts))
  := by
  have hfind := find?_document parts .aliases
  change (document parts).find? "aliases" = _ at hfind
  rw [hfind]
  split
  · rfl
  · rename_i hslot
    rw [(aliasesOf_eq_nil_iff parts).2 hslot]
    rfl

theorem assocIn_aliases (parts : List Part) (name options : Value) :
  State.assocIn [.str "aliases", name] (.dict (document parts)) options = do
    let k ← name.key
    return .dict ((document parts).insert "aliases"
      (.dict ((Entries.ofPairs (aliasesOf parts)).insert k options)))
  := by
  rw [State.assocIn, State.updateIn, Value.get_dict, pure_bind, wayOf_aliases, State.updateIn]
  · cases hkey : name.key with
    | error fault =>
      rw [Value.get, hkey]
      rfl
    | ok k =>
      simp only [Value.get_dict_of_key hkey, Value.mapping_dict, Value.key_str, Build.liftM_ok,
        pure_bind]
  · intro h
    cases h

/-- A step adds its part. -/
theorem apply_eq (parts : List Part) (step : Step) :
  (⟨.dict (document parts)⟩ : IndexConfig).apply step = do
    return ⟨.dict (document (parts ++ [← step.part]))⟩
  := by
  match step with
  | .mappings value =>
    have hvalue : slotValue (parts ++ [.mappings value]) .mappings = value := by
      simp [slotValue, valuesOf, Part.value?]
    rw [Step.part, Build.liftM_ok, pure_bind, document_concat, Part.slot, hvalue]
    rfl
  | .settings value =>
    have hvalue : slotValue (parts ++ [.settings value]) .settings = value := by
      simp [slotValue, valuesOf, Part.value?]
    rw [Step.part, Build.liftM_ok, pure_bind, document_concat, Part.slot, hvalue]
    rfl
  | .alias name options =>
    cases hoptions : options.orEmpty.toDict with
    | error fault =>
      simp only [apply, Step.part, hoptions]
      rfl
    | ok own =>
      cases hkey : name.key with
      | error fault =>
        simp only [apply, Step.part, hoptions, hkey, Build.liftM_ok, pure_bind, assocIn_aliases]
        rfl
      | ok k =>
        have hpart : Step.part (.alias name options) = .ok (.named k own) := by
          rw [Step.part, hoptions, hkey]
          rfl
        have hvalue : slotValue (parts ++ [.named k own]) .aliases =
            .dict ((Entries.ofPairs (aliasesOf parts)).insert k own) := by
          rw [slotValue, aliasesOf, List.filterMap_append, Entries.ofPairs, Entries.merge_append]
          rfl
        rw [hpart, Build.liftM_ok, pure_bind, document_concat, Part.slot, hvalue]
        simp only [apply, hoptions, hkey, Build.liftM_ok, pure_bind, assocIn_aliases]
        rfl

/-- A run makes the configuration of all its parts. -/
theorem run_eq (parts : List Part) (steps : List Step) :
  (⟨.dict (document parts)⟩ : IndexConfig).run steps = do
    return ⟨.dict (document (parts ++ (← (steps.mapM Step.part : Except Fault (List Part)))))⟩
  := by
  induction steps generalizing parts with
  | nil => simp [run]
  | cons step steps ih =>
    unfold run at ih ⊢
    rw [List.foldlM_cons, List.mapM_cons, apply_eq]
    simp only [liftM_bind, liftM_pure, bind_assoc, pure_bind, ih, List.append_assoc,
      List.singleton_append]

/-- Where a run from the empty configuration has a result, every step has its part, and they make
the result. -/
theorem result_run_iff {steps : List Step} {calls : Calls} {c : IndexConfig} :
  (new.run steps calls).result = .ok c ↔
    ∃ parts, steps.mapM Step.part = .ok parts ∧ c = ⟨.dict (document parts)⟩
  := by
  have hrun : new.run steps = do return ⟨.dict (document (← (steps.mapM Step.part : Except Fault (List Part))))⟩ :=
    run_eq [] steps
  rw [hrun]
  cases steps.mapM Step.part with
  | error fault =>
    constructor
    · intro h
      cases h
    · rintro ⟨parts, h, -⟩
      cases h
  | ok parts =>
    rw [Build.liftM_ok, pure_bind]
    constructor
    · intro h
      use parts, rfl, (Except.ok.inj h).symm
    · rintro ⟨parts', hparts, rfl⟩
      rw [Except.ok.inj hparts]
      rfl

/-! ### What is built -/

/-- What is built of some parts. -/
def built (parts : List Part) : Dict :=
  (parts.map Part.slot).eraseDups.map fun slot => (slot.key, (slotValue parts slot).copy)

theorem build_document (parts : List Part) :
  build ⟨.dict (document parts)⟩ = .dict (built parts)
  := by
  have hkey : ∀ slot : Slot, slot.key.mapObject Value.copy = slot.key := by
    intro slot
    cases slot
    all_goals rfl
  change Value.copy (.dict (document parts)) = _
  rw [Value.copy_dict, document, List.map_map]
  simp only [Function.comp_def, hkey]
  rfl

theorem copy_aliases (parts : List Part) :
  (slotValue parts .aliases).copy = .dict (Entries.ofPairs (aliasesOf parts)).copied
  := Value.copy_dict _ _

theorem find?_built (parts : List Part) (slot : Slot) :
  (built parts).find? (Named.name slot.key) =
    if slot ∈ parts.map Part.slot then some (slotValue parts slot).copy else none
  := by
  rw [built, Entries.find?_map Slot.key_injective]
  simp only [List.mem_eraseDups]

theorem find?_built_value {slot : Slot} (h : slot ≠ .aliases) (parts : List Part) :
  (built parts).find? (Named.name slot.key) = (valuesOf slot parts).getLast?.map Value.copy
  := by
  have hvalue : slotValue parts slot = (valuesOf slot parts).getLast?.getD .null := by
    cases slot with
    | aliases => exact absurd rfl h
    | _ => rfl
  have hnil := valuesOf_eq_nil_iff h parts
  rw [find?_built, hvalue]
  cases hlast : (valuesOf slot parts).getLast? with
  | none => rw [if_neg (hnil.1 (List.getLast?_eq_none_iff.1 hlast)), Option.map_none]
  | some v =>
    have hmem : slot ∈ parts.map Part.slot := by
      by_contra hslot
      rw [hnil.2 hslot] at hlast
      cases hlast
    rw [if_pos hmem, Option.getD_some, Option.map_some]

/-- The slots that are used are in the order of their first use; the mappings and the settings are
the last ones, and the aliases are filed by name. -/
structure Accumulates (parts : List Part) (ds : Dict) : Prop where
  keys : ds.map Prod.fst = (parts.map Part.slot).eraseDups.map Slot.key
  values : ∀ slot, slot ≠ .aliases →
    ds.find? (Named.name slot.key) = (valuesOf slot parts).getLast?.map Value.copy
  aliases : aliasesOf parts = [] ∧ ds.find? "aliases" = none ∨ aliasesOf parts ≠ [] ∧
    ∃ as, ds.find? "aliases" = some (.dict as) ∧ Entries.CopyOf (aliasesOf parts) as

theorem accumulates_built (parts : List Part) :
  Accumulates parts (built parts)
  := by
  constructor
  · rw [built, List.map_map]
    rfl
  · intro slot h
    apply find?_built_value h
  · have hnil := aliasesOf_eq_nil_iff parts
    have hfind := find?_built parts .aliases
    change (built parts).find? "aliases" = _ at hfind
    by_cases h : aliasesOf parts = []
    · left
      rw [hfind, if_neg (hnil.1 h)]
      exact ⟨h, rfl⟩
    · right
      rw [hfind, if_pos (not_not.1 fun hslot => h (hnil.2 hslot)), copy_aliases]
      exact ⟨h, _, rfl, Entries.copyOf_ofPairs _⟩

/-! ### Neighbouring calls -/

/-- Two steps for different slots, or two aliases with different names. -/
inductive Apart : Step → Step → Prop
  | slots {a b : Step} (h : a.slot ≠ b.slot) : Apart a b
  | names {n m o p : Value} {k l : Key} (hn : n.key = .ok k) (hm : m.key = .ok l)
      (h : Named.name k ≠ Named.name l) : Apart (.alias n o) (.alias m p)

/-- The same but for the order of the slots, or of the aliases. -/
inductive SameButOrder : Value → Value → Prop
  | slots {es ds : Dict} (h : es.Perm ds) : SameButOrder (.dict es) (.dict ds)
  | aliases {es as bs : Dict} (found : es.find? "aliases" = some (.dict as)) (h : as.Perm bs) :
      SameButOrder (.dict es) (.dict (es.insert "aliases" (.dict bs)))

theorem part_alias_eq_ok {name options : Value} {part : Part}
    (h : Step.part (.alias name options) = .ok part) :
  ∃ k own, name.key = .ok k ∧ options.orEmpty.toDict = .ok own ∧ part = .named k own
  := by
  rw [Step.part] at h
  cases hoptions : options.orEmpty.toDict with
  | error fault =>
    rw [hoptions] at h
    cases h
  | ok own =>
    cases hkey : name.key with
    | error fault =>
      rw [hoptions, hkey] at h
      cases h
    | ok k =>
      rw [hoptions, hkey] at h
      use k, own, rfl, rfl, (Except.ok.inj h).symm

theorem slot_part {step : Step} {part : Part} (h : step.part = .ok part) :
  part.slot = step.slot
  := by
  match step with
  | .mappings value =>
    rw [← Except.ok.inj h]
    rfl
  | .settings value =>
    rw [← Except.ok.inj h]
    rfl
  | .alias name options =>
    obtain ⟨k, own, -, -, rfl⟩ := part_alias_eq_ok h
    rfl

theorem filterMap_swap {α β : Type} {f : α → Option β} {a b : α} (h : f a = none ∨ f b = none)
    (before after : List α) :
  (before ++ b :: a :: after).filterMap f = (before ++ a :: b :: after).filterMap f
  := by
  rw [List.filterMap_append, List.filterMap_append]
  congr 1
  obtain h | h := h
  · simp [List.filterMap_cons, h]
  · simp [List.filterMap_cons, h]

section

variable {p q : Part} (before after : List Part)

theorem slotValue_swap (h : p.slot ≠ q.slot) (slot : Slot) :
  slotValue (before ++ q :: p :: after) slot = slotValue (before ++ p :: q :: after) slot
  := by
  have hone : p.slot ≠ slot ∨ q.slot ≠ slot := by
    by_cases hp : p.slot = slot
    · right
      rw [← hp]
      apply Ne.symm h
    · left
      apply hp
  have hvalues := filterMap_swap (hone.imp value?_eq_none value?_eq_none) before after
  cases slot with
  | aliases =>
    have haliases := filterMap_swap (hone.imp alias?_eq_none alias?_eq_none) before after
    rw [slotValue, aliasesOf, haliases, slotValue, aliasesOf]
  | _ => rw [slotValue, valuesOf, hvalues, slotValue, valuesOf]

/-- Parts in different slots make the same slots in either order, but for the order of the slots. -/
theorem perm_built_swap (h : p.slot ≠ q.slot) :
  (built (before ++ p :: q :: after)).Perm (built (before ++ q :: p :: after))
  := by
  have hslots : ((before ++ p :: q :: after).map Part.slot).Perm
      ((before ++ q :: p :: after).map Part.slot) :=
    ((List.Perm.swap q p after).append_left before).map Part.slot
  unfold built
  simp only [slotValue_swap before after h]
  apply (perm_eraseDups hslots).map

end

/-- Parts for the same slots and with the same mappings and settings make the same slots, with the
aliases in another order. -/
theorem sameButOrder_built {parts others : List Part}
    (hslots : others.map Part.slot = parts.map Part.slot) (hmem : .aliases ∈ parts.map Part.slot)
    (hvalues : ∀ slot, slot ≠ .aliases → slotValue others slot = slotValue parts slot)
    (hperm : (Entries.ofPairs (aliasesOf parts)).Perm (Entries.ofPairs (aliasesOf others))) :
  SameButOrder (.dict (built parts)) (.dict (built others))
  := by
  have hfound := find?_built parts .aliases
  rw [if_pos hmem, copy_aliases] at hfound
  have hbuilt : built others =
      (built parts).insert Slot.aliases.key
        (.dict (Entries.ofPairs (aliasesOf others)).copied) := by
    unfold built
    rw [Entries.insert_map Slot.key_injective _ _ _ (nodup_eraseDups _),
      if_pos (List.mem_eraseDups.2 hmem), hslots]
    apply List.map_congr_left
    intro slot _
    by_cases h : slot = .aliases
    · rw [if_pos h, h, copy_aliases]
    · rw [if_neg h, hvalues slot h]
  rw [hbuilt]
  apply SameButOrder.aliases hfound
  apply hperm.map

/-- Aliases with different names make the same slots in either order, but for the order of the
aliases. -/
theorem sameButOrder_swap {k l : Key} (h : Named.name k ≠ Named.name l) (v w : Value)
    (before after : List Part) :
  SameButOrder (.dict (built (before ++ .named k v :: .named l w :: after)))
    (.dict (built (before ++ .named l w :: .named k v :: after)))
  := by
  apply sameButOrder_built
  · simp [Part.slot]
  · simp [Part.slot]
  · intro slot hslot
    have hnone : ∀ key options, Part.value? slot (.named key options) = none := fun _ _ => rfl
    have hvalues := filterMap_swap (b := .named l w) (.inl (hnone k v)) before after
    cases slot with
    | aliases => exact absurd rfl hslot
    | _ => rw [slotValue, valuesOf, hvalues, slotValue, valuesOf]
  · simp only [aliasesOf, List.filterMap_append, List.filterMap_cons, Part.alias?]
    apply Entries.perm_ofPairs_swap h

/-- Two neighbouring calls that are apart may change places. -/
theorem result_run_swap {before after : List Step} {a b : Step} (h : Apart a b) {calls : Calls}
    {c : IndexConfig} (hc : (new.run (before ++ a :: b :: after) calls).result = .ok c) :
  ∃ d, (new.run (before ++ b :: a :: after) calls).result = .ok d ∧ SameButOrder c.build d.build
  := by
  obtain ⟨parts, hparts, rfl⟩ := result_run_iff.1 hc
  obtain ⟨ps, rest, hbefore, hrest, rfl⟩ := exists_of_mapM_append hparts
  obtain ⟨p, tail, hp, htail, rfl⟩ := List.forall₂_cons_left_iff.1 (mapM_eq_ok_iff.1 hrest)
  obtain ⟨q, qs, hq, hafter, rfl⟩ := List.forall₂_cons_left_iff.1 htail
  have hswapped : (before ++ b :: a :: after).mapM Step.part = .ok (ps ++ q :: p :: qs) :=
    mapM_eq_ok_iff.2 (List.rel_append (mapM_eq_ok_iff.1 hbefore) (.cons hq (.cons hp hafter)))
  use ⟨.dict (document (ps ++ q :: p :: qs))⟩, result_run_iff.2 ⟨_, hswapped, rfl⟩
  rw [build_document, build_document]
  cases h with
  | slots h =>
    rw [← slot_part hp, ← slot_part hq] at h
    exact .slots (perm_built_swap ps qs h)
  | names hn hm h =>
    obtain ⟨k, v, hk, -, rfl⟩ := part_alias_eq_ok hp
    obtain ⟨l, w, hl, -, rfl⟩ := part_alias_eq_ok hq
    obtain rfl := Except.ok.inj (hn.symm.trans hk)
    obtain rfl := Except.ok.inj (hm.symm.trans hl)
    apply sameButOrder_swap h

end IndexConfig

/-! ### Both builders -/

/-- An index configuration builds the slots that its calls use, in the order of the first use, with
the mappings and the settings of the last call and every alias once, in the order of the first call
of its name, with its own dictionary of the options of the last one; and two neighbouring calls that
are for different slots or different aliases may change places, but for the order of the slots or of
the aliases.  Suggestions with names that are keys build each name once, in the order of the first
call, with a copy of what the last call files, which is its text or prefix and its options under one
kind of suggester, and nothing of the earlier calls. -/
theorem last_calls_count {steps : List IndexConfig.Step} {calls : Calls} {c : IndexConfig}
    (h : (IndexConfig.new.run steps calls).result = .ok c) {given : List Suggestions.Step}
    (hnames : ∀ step ∈ given, ∃ k, step.name.key = .ok k) :
  (∃ parts ds, steps.mapM IndexConfig.Step.part = .ok parts ∧ c.build = .dict ds ∧
    IndexConfig.Accumulates parts ds) ∧
  (∀ before a b after, steps = before ++ a :: b :: after → IndexConfig.Apart a b →
    ∃ d, (IndexConfig.new.run (before ++ b :: a :: after) calls).result = .ok d ∧
      IndexConfig.SameButOrder c.build d.build) ∧
  ∃ s entries ds, Suggestions.new.run given = .ok s ∧
    List.Forall₂ Suggestions.Step.Files given entries ∧ s.build = .single "suggest" (.dict ds) ∧
    Entries.CopyOf entries ds
  := by
  constructor
  · obtain ⟨parts, hparts, rfl⟩ := IndexConfig.result_run_iff.1 h
    use parts, IndexConfig.built parts, hparts, IndexConfig.build_document parts
    apply IndexConfig.accumulates_built
  constructor
  · rintro before a b after rfl hab
    apply IndexConfig.result_run_swap hab h
  · obtain ⟨entries, hentries⟩ := Suggestions.exists_entries hnames
    use ⟨.dict (Entries.ofPairs entries)⟩, entries, (Entries.ofPairs entries).copied
    use Suggestions.run_of_entries hentries, Suggestions.files_of_entries hentries
    use Suggestions.build_dict _
    apply Entries.copyOf_ofPairs

/-- An alias that is given twice around settings and another alias, and a name that is first a term
suggestion and then a completion, around a phrase. -/
theorem last_calls_count_of_repetitions :
  let steps : List IndexConfig.Step := [.alias (.str "a") .null, .settings (.int 1),
    .alias (.str "b") .empty, .alias (.str "a") (.single "w" (.bool true)), .settings (.int 2)]
  let given : List Suggestions.Step := [⟨.term, .str "s", .str "x", .single "size" (.int 1)⟩,
    ⟨.phrase, .str "t", .str "y", .single "field" (.str "f")⟩,
    ⟨.completion, .str "s", .str "z", .single "size" (.int 2)⟩]
  (∃ (c : IndexConfig) (ds as : Dict),
    (IndexConfig.new.run steps fun _ _ _ => .of (.ok .null)).result = .ok c ∧
    c.build = .dict ds ∧ ds.map Prod.fst = ["aliases", "settings"] ∧
    ds.find? "settings" = some (.int 2) ∧ ds.find? "aliases" = some (.dict as) ∧
    as.names = [.text "a", .text "b"] ∧ as.find? "a" = some (.single "w" (.bool true))) ∧
  ∃ (s : Suggestions) (ds : Dict), Suggestions.new.run given = .ok s ∧
    s.build = .single "suggest" (.dict ds) ∧ ds.names = [.text "s", .text "t"] ∧
    ds.find? "s" =
      some (.dict [("prefix", .str "z"), ("completion", .single "size" (.int 2))]) ∧
    ds.find? "t" = some (.dict [("text", .str "y"), ("phrase", .single "field" (.str "f"))])
  := by
  intro steps given
  have hparts : steps.mapM IndexConfig.Step.part = .ok [.named "a" .empty, .settings (.int 1),
      .named "b" .empty, .named "a" (.single "w" (.bool true)), .settings (.int 2)] := rfl
  obtain ⟨c, hc⟩ : ∃ c, (IndexConfig.new.run steps fun _ _ _ => .of (.ok .null)).result = .ok c :=
    ⟨_, IndexConfig.result_run_iff.2 ⟨_, hparts, rfl⟩⟩
  have hnames : ∀ step ∈ given, ∃ k, step.name.key = .ok k := by
    simp only [given, List.forall_mem_cons, Value.key_str, Except.ok.injEq, exists_eq',
      List.not_mem_nil, false_imp_iff, implies_true, and_self]
  obtain ⟨⟨parts, ds, hmapM, hbuild, hkeys, hvalues, haliases⟩, -, s, entries, es, hs, hfiles,
    hsuggest, -, hcopy⟩ := last_calls_count hc hnames
  obtain rfl := Except.ok.inj (hparts.symm.trans hmapM)
  obtain ⟨hnone, -⟩ | ⟨-, as, hfound, -, halias⟩ := haliases
  · cases hnone
  have htexts : Entries.Texts [("a", .empty), ("b", .empty), ("a", .single "w" (.bool true))] := by
    simp [Entries.texts_cons, Entries.texts_nil]
  obtain ⟨haliasNames, haliasLast⟩ := halias htexts
  constructor
  · use c, ds, as, hc, hbuild, hkeys, hvalues .settings (by decide), hfound, haliasNames
    apply haliasLast [("a", .empty), ("b", .empty)] "a" _ [] rfl
    apply List.not_mem_nil
  · let filed : Dict := [
      ("s", .dict [("text", .str "x"), ("term", .single "size" (.int 1))]),
      ("t", .dict [("text", .str "y"), ("phrase", .single "field" (.str "f"))]),
      ("s", .dict [("prefix", .str "z"), ("completion", .single "size" (.int 2))])]
    obtain rfl : entries = filed := by
      obtain ⟨_, _, ⟨hterm⟩, hrest, rfl⟩ := List.forall₂_cons_left_iff.1 hfiles
      obtain ⟨_, _, _ | ⟨hphrase⟩, hlast, rfl⟩ := List.forall₂_cons_left_iff.1 hrest
      obtain ⟨_, _, _ | _ | ⟨hcompletion⟩, hend, rfl⟩ := List.forall₂_cons_left_iff.1 hlast
      obtain rfl := List.forall₂_nil_left_iff.1 hend
      obtain rfl := Except.ok.inj hterm
      obtain rfl := Except.ok.inj hphrase
      obtain rfl := Except.ok.inj hcompletion
      rfl
    have hkeyTexts : Entries.Texts filed := by
      simp [filed, Entries.texts_cons, Entries.texts_nil]
    obtain ⟨hesNames, hesLast⟩ := hcopy hkeyTexts
    use s, es, hs, hsuggest, hesNames
    constructor
    · apply hesLast [_, _] "s" _ [] rfl
      apply List.not_mem_nil
    · apply hesLast [_] "t" _ [_] rfl
      decide

end SearchDsl
