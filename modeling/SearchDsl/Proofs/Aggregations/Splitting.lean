import SearchDsl.Proofs.Aggregations.Last
import SearchDsl.Proofs.Aggregations.Program

/-!
# Splitting what is nested

Some steps may be nested at once or in two parts, where the second part starts with an addition:
what is built, the warnings, the changes in place and the fault are the same, and so is
everything that follows (`Aggregations.nest_nest`).  For steps that start with an addition do on
top of other entries what they do by themselves, with what they come to merged into the entries
(`Aggregations.matches_after`).
-/

namespace SearchDsl

namespace Aggregations

/-- Nothing is nested before the first addition. -/
def StartsAnew : List Step → Prop
  | .nest _ :: _ => False
  | _ => True

/-- The first aggregations have what the second ones have, merged into some entries, and the name
filed last is that of one of the second ones. -/
inductive Above (es : Dict) : Aggregations → Aggregations → Prop
  | intro {ds : Dict} {last : Value} {key : Key} (distinct : ds.Distinct)
      (hkey : last.key = .ok key) (filed : Named.name key ∈ ds.names) :
      Above es ⟨.dict (es.merge ds), last⟩ ⟨.dict ds, last⟩

theorem Above.entries {es : Dict} {a b : Aggregations} (h : Above es a b) :
  a.entries = es.merge b.entries
  := by
  cases h
  rfl

/-! ### Steps on top of other entries -/

theorem matches_add (es : Dict) {ds : Dict} (h : ds.Distinct) (last last' name : Value)
    (a : Aggregation) :
  Build.Matches (Above es) (apply ⟨.dict (es.merge ds), last⟩ (.add name a))
    (apply ⟨.dict ds, last'⟩ (.add name a))
  := by
  rw [apply_add_eq, apply_add_eq]
  apply Build.Matches.bind_same
  intro v
  have hname : Build.Yields (fun key => name.key = .ok key) (liftM name.key) :=
    Build.Yields.lift fun key hkey => hkey
  apply hname.matches.bind
  rintro key _ ⟨rfl, hkey⟩
  apply Build.Matches.pure
  rw [← Entries.merge_insert h]
  apply Above.intro (h.insert key v) hkey (Entries.name_mem_insert key v ds)

theorem matches_apply {es : Dict} {a b : Aggregations} (h : Above es a b) (step : Step) :
  Build.Matches (Above es) (a.apply step) (b.apply step)
  := by
  obtain @⟨ds, last, key, distinct, hkey, filed⟩ := h
  cases step with
  | add name node => apply matches_add es distinct
  | nest inner =>
    cases hlast : last.isNull with
    | true =>
      rw [apply, apply, if_pos hlast, if_pos hlast]
      apply Build.Matches.fail
    | false =>
      -- The node filed last is found among what is merged in.
      have hfind : (es.merge ds).find? key.name = ds.find? key.name :=
        Entries.find?_merge_of_mem distinct filed es
      rw [apply_nest_eq hlast hkey, apply_nest_eq hlast hkey, hfind]
      apply Build.Matches.bind_same
      intro result
      apply Build.Matches.bind_same
      intro child
      apply Build.Matches.bind_same
      intro items
      apply Build.Matches.bind_same
      intro v
      apply Build.Matches.pure
      rw [← Entries.merge_insert distinct]
      apply Above.intro (distinct.insert key v) hkey (Entries.name_mem_insert key v ds)

theorem matches_run {es : Dict} {a b : Aggregations} (h : Above es a b) (steps : List Step) :
  Build.Matches (Above es) (a.run steps) (b.run steps)
  := Build.Matches.foldlM (fun _ _ step hab => matches_apply hab step) h steps

/-- Steps that start with an addition merge into what is there what they come to by themselves. -/
theorem matches_after {P : Value → Prop} {a : Aggregations} (h : Tracked P a) {steps : List Step}
    (hsteps : StartsAnew steps) :
  Build.Matches (fun c d => c.entries = a.entries.merge d.entries) (a.run steps) (new.run steps)
  := by
  obtain ⟨heq, -⟩ := h.nodes
  match steps with
  | [] =>
    apply Build.Matches.pure
    rfl
  | .add name node :: steps =>
    rw [run_cons, run_cons, heq]
    have hnil : Entries.Distinct ([] : Dict) := List.nodup_nil
    have hadd := matches_add a.entries hnil a.last .null name node
    apply hadd.bind
    intro c d hcd
    apply (matches_run hcd steps).mono
    intro c d hcd
    apply hcd.entries
  | .nest inner :: steps => cases hsteps

/-! ### Nesting in two parts -/

theorem Step.adds_true (step : Step) :
  step.Adds fun _ => True
  := by
  cases step
  all_goals trivial

/-- A run from nothing files nodes under distinct names. -/
theorem yields_distinct (steps : List Step) :
  Build.Yields (Tracked fun _ => True) (new.run steps)
  := yields_tracked_run .none fun step _ => step.adds_true

/-- Children may be filed below a node in two parts. -/
theorem nested_nested (node : Dict) {children : Dict} (h : children.Distinct) (more : Dict) :
  nested (nested node children) more = nested node (children.merge more)
  := by
  rw [nested, below_nested, nested, Entries.insert_insert_self, nested, Entries.merge_merge h]

/-- Nesting steps files what they come to by themselves below the node filed last. -/
theorem apply_nest_callback {es node : Dict} {i j : Identity} {last : Value} {key : Key}
    (hlast : last.isNull = false) (hkey : last.key = .ok key)
    (hfind : es.find? key.name = some (.dict node j)) (hnode : Nestable node) (steps : List Step) :
  apply ⟨.dict es i, last⟩ (.nest (callback steps false)) = do
    let a ← new.run steps
    return ⟨.dict (es.insert key (.dict (nested node a.entries))), last⟩
  := by
  have hcallback : callback steps false new.toValue = do
      let a ← new.run steps
      return a.toValue := rfl
  rw [apply_nest_eq hlast hkey, hfind, hcallback, bind_assoc]
  apply (yields_distinct steps).bind_congr
  intro a ha
  obtain ⟨heq, -⟩ := ha.nodes
  have hentries : Fragment.entriesOf "sub_agg" a.toValue = .ok (.dict a.entries) := by
    rw [heq]
    rfl
  have hitems : (Value.dict a.entries).items = .ok (Value.keysOf a.entries) := rfl
  have hway : State.wayOf ((some (Value.dict node j)).getD .null) = .dict node j := rfl
  simp only [hentries, hitems, hway, Build.liftM_ok, pure_bind, updateIn_aggs hnode]

theorem run_append (a : Aggregations) (p q : List Step) :
  a.run (p ++ q) = a.run p >>= fun b => b.run q
  := List.foldlM_append

/-- Both ways to nest file the same where there is a node to nest under. -/
theorem run_nest_nest {es node : Dict} {i j : Identity} {last : Value} {key : Key}
    (hlast : last.isNull = false) (hkey : last.key = .ok key)
    (hfind : es.find? key.name = some (.dict node j)) (hnode : Nestable node) (p : List Step)
    {q : List Step} (hq : StartsAnew q) (more : List Step) :
  (⟨.dict es i, last⟩ : Aggregations).run
      (.nest (callback p false) :: .nest (callback q false) :: more) =
    (⟨.dict es i, last⟩ : Aggregations).run (.nest (callback (p ++ q) false) :: more)
  := by
  have hagain : ∀ children : Dict,
      Entries.find? key.name (es.insert key (.dict (nested node children))) =
        some (.dict (nested node children)) :=
    fun children => Entries.find?_insert_self key _ es
  rw [run_cons, run_cons, apply_nest_callback hlast hkey hfind hnode,
    apply_nest_callback hlast hkey hfind hnode, run_append, bind_assoc, bind_assoc, bind_assoc]
  apply (yields_distinct p).bind_congr
  intro a ha
  rw [pure_bind, run_cons, apply_nest_callback hlast hkey (hagain _) (nestable_nested _ _),
    bind_assoc]
  symm
  apply (matches_after ha hq).bind_eq
  intro c d hcd
  rw [pure_bind, pure_bind, Entries.insert_insert_self, nested_nested node ha.nodes.2, hcd]

/-- Some steps nested one after another are nested as well at once, where the second ones start
with an addition.  What all follow-ups make of the two is the same.  The nodes of the second ones
replace those of the first ones in their places. -/
theorem nest_nest {before : List Step} {calls : Calls} {b : Aggregations} {node : Dict}
    {j : Identity} (hb : (new.run before calls).result = .ok b)
    (hlast : b.lastNode? = some (.dict node j)) (hnode : Nestable node) (p : List Step)
    {q : List Step} (hq : StartsAnew q) :
  (∀ more, b.run (.nest (callback p false) :: .nest (callback q false) :: more) =
    b.run (.nest (callback (p ++ q) false) :: more)) ∧
  ∀ later c, (b.apply (.nest (callback (p ++ q) false)) later).result = .ok c →
    ∃ a d, (new.run p later).result = .ok a ∧
      (new.run q (later.after (new.run p later).changes)).result = .ok d ∧
      c.lastNode? = some (.dict (nested node (a.entries.merge d.entries))) ∧
      (a.entries.merge d.entries).names = (a.entries.names ++ d.entries.names).eraseDups ∧
      ∀ k ∈ d.entries.names, (a.entries.merge d.entries).find? k = d.entries.find? k
  := by
  cases yields_distinct before calls b hb with
  | none => cases hlast
  | @some es last key _ _ hkey _ =>
    have hfind : es.find? key.name = some (.dict node j) := by
      rw [lastNode?, hkey] at hlast
      apply hlast
    cases hnull : last.isNull with
    | true =>
      have hfail : ∀ inner, apply ⟨.dict es, last⟩ (.nest inner) = .fail .nothingToNestUnder := by
        intro inner
        rw [apply, if_pos hnull]
      constructor
      · intro more
        rw [run_cons, run_cons, hfail, hfail, Build.fail_bind, Build.fail_bind]
      · intro later c hc
        rw [hfail] at hc
        cases hc
    | false =>
      constructor
      · apply run_nest_nest hnull hkey hfind hnode p hq
      · intro later c hc
        rw [apply_nest_callback hnull hkey hfind hnode, run_append] at hc
        obtain ⟨e, he, hfiled⟩ := Build.exists_of_bind_ok hc
        obtain ⟨a, ha, hrest⟩ := Build.exists_of_bind_ok he
        have htracked := yields_distinct p later a ha
        obtain ⟨d, hd, hmerged⟩ := (matches_after htracked hq).exists_of_ok hrest
        have hdistinct := (yields_distinct q _ d hd).nodes.2
        use a, d, ha, hd
        constructor
        · rw [← Except.ok.inj hfiled, lastNode?, hkey, ← hmerged]
          apply Entries.find?_insert_self key
        · constructor
          · apply Entries.names_merge htracked.nodes.2
          · intro k hk
            apply Entries.find?_merge_of_mem hdistinct hk

/-- Two parts that add under one name, the first of which nests something there. -/
theorem nest_nest_of_one_name :
  ∃ b, (new.run [.add (.str "t") (.topHits .null)] fun _ _ _ => .of (.ok .null)).result = .ok b ∧
    b.run [.nest (callback [.add (.str "x") (.topHits .null),
        .nest (callback [.add (.str "y") (.topHits .null)] true)] false),
      .nest (callback [.add (.str "x") (.node (.single "sum" .empty))] false)] =
    b.run [.nest (callback [.add (.str "x") (.topHits .null),
        .nest (callback [.add (.str "y") (.topHits .null)] true),
        .add (.str "x") (.node (.single "sum" .empty))] false)]
  := by
  let b : Aggregations := ⟨.dict [("t", .single "top_hits" .empty)], .str "t"⟩
  have hb : (new.run [.add (.str "t") (.topHits .null)] fun _ _ _ => .of (.ok .null)).result =
      .ok b := rfl
  have hlast : b.lastNode? = some (.dict [("top_hits", .empty)]) := rfl
  have hnode : Nestable [("top_hits", .empty)] := nestable_of_absent rfl
  have hq : StartsAnew [.add (.str "x") (.node (.single "sum" .empty))] := trivial
  use b, hb
  apply (nest_nest hb hlast hnode _ hq).1 []

end Aggregations

end SearchDsl
