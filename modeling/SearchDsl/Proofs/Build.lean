import Mathlib.Data.List.Forall2
import SearchDsl.Build

/-!
# Reasoning about builds

Two builds that come to the same under some view of their results go on to the same when
what follows looks at that view alone (`Build.map_bind_congr`), and builds with related
results go on to related results (`Build.Matches`).  `Build.Yields` is what holds of every
result of a build, and `Build.Succeeds` that there always is one.  `Build.Gives` says that a
build has a result after some changes in place, `Build.AlwaysGives` that it has this result after
any changes, which is so where it calls nothing (`Build.CallsNothing`).  `Build.ComesTo` says that
a build has a result and changes nothing, so that what follows finds everything as it was
(`Build.comesTo_bind`), and `Build.Settled` that the build then depends on nothing but what calls
come to before any change.  `Build.Reports` counts the warnings on the way to a result.

A list is built from left to right.  Where each of its items has a result without warnings
and changes, so has the list (`exists_mapM_eq_pure`).
-/

namespace SearchDsl

namespace Build

variable {α β γ δ ε ζ : Type}

theorem map_apply (p : α → β) (x : Build α) (calls : Calls) :
  (p <$> x) calls = ⟨(x calls).warnings, (x calls).changes, (x calls).result.map p⟩
  := by
  rw [map_eq_pure_bind]
  change bind x _ calls = _
  unfold bind
  obtain ⟨w, changes, r⟩ := x calls
  cases r with
  | error fault => simp [Outcome.andThen, Outcome.of, Except.map]
  | ok a => simp [Outcome.andThen, Outcome.of, Except.map]

theorem map_bind_congr {x : Build α} {y : Build β} {p : α → γ} {q : β → γ}
    {f : α → Build δ} {g : β → Build ε} {r : δ → ζ} {s : ε → ζ} (hxy : p <$> x = q <$> y)
    (hfg : ∀ a b, p a = q b → r <$> f a = s <$> g b) :
  r <$> (x >>= f) = s <$> (y >>= g)
  := by
  rw [map_bind, map_bind]
  ext calls
  have h := congrFun hxy calls
  rw [map_apply, map_apply] at h
  change bind x _ calls = bind y _ calls
  unfold bind
  generalize x calls = o at h ⊢
  generalize y calls = o' at h ⊢
  obtain ⟨w, changes, result⟩ := o
  obtain ⟨w', changes', result'⟩ := o'
  injection h with hw hchanges hresult
  subst hw hchanges
  cases result with
  | error fault =>
    cases result' with
    | error fault' =>
      injection hresult with hfault
      rw [hfault]
      rfl
    | ok b => cases hresult
  | ok a =>
    cases result' with
    | error fault' => cases hresult
    | ok b =>
      injection hresult with hab
      dsimp only
      rw [hfg a b hab]
      rfl

/-- What comes of a sequence of two builds comes of them one after the other. -/
theorem exists_of_bind_ok {x : Build α} {f : α → Build β} {calls : Calls} {b : β}
    (h : ((x >>= f) calls).result = .ok b) :
  ∃ a, (x calls).result = .ok a ∧ (f a (calls.after (x calls).changes)).result = .ok b
  := by
  rw [result_bind] at h
  cases ha : (x calls).result with
  | error fault =>
    rw [ha] at h
    cases h
  | ok a =>
    rw [ha] at h
    exact ⟨a, rfl, h⟩

theorem result_bind_of_ok {x : Build α} {calls : Calls} {a : α} (h : (x calls).result = .ok a)
    (f : α → Build β) :
  ((x >>= f) calls).result = (f a (calls.after (x calls).changes)).result
  := by
  rw [result_bind, h]
  rfl

/-- What goes on without calls has the warnings and changes of what was before it. -/
theorem bind_lift_apply (x : Build α) (f : α → Except Fault β) (calls : Calls) :
  (x >>= fun a => liftM (f a)) calls =
    ⟨(x calls).warnings, (x calls).changes, (x calls).result.bind f⟩
  := by
  change bind x _ calls = _
  unfold bind
  obtain ⟨w, changes, r⟩ := x calls
  cases r with
  | error fault => simp [Outcome.andThen, Outcome.of, Except.bind]
  | ok a =>
    change Outcome.andThen ⟨w, changes, _⟩ (.of (f a)) = _
    simp [Outcome.andThen, Outcome.of, Except.bind]

instance : LawfulMonadLift (Except Fault) Build where
  monadLift_pure _ := rfl
  monadLift_bind x f := by
    cases x with
    | error fault => rfl
    | ok a => apply (pure_bind a fun a => (liftM (f a) : Build _)).symm

/-! ### What holds of every result -/

/-- Every result has the property. -/
def Yields (P : α → Prop) (x : Build α) : Prop := ∀ calls a, (x calls).result = .ok a → P a

theorem Yields.mono {P Q : α → Prop} {x : Build α} (h : Yields P x) (hPQ : ∀ a, P a → Q a) :
  Yields Q x
  := by
  intro calls a ha
  apply hPQ a (h calls a ha)

theorem Yields.pure {P : α → Prop} {a : α} (h : P a) :
  Yields P (Pure.pure a)
  := by
  intro calls b hb
  rw [← Except.ok.inj hb]
  apply h

theorem Yields.lift {P : α → Prop} {x : Except Fault α} (h : ∀ a, x = .ok a → P a) :
  Yields P (liftM x)
  := by
  intro calls a ha
  apply h a ha

theorem Yields.fail {P : α → Prop} (fault : Fault) :
  Yields P (Build.fail fault)
  := by
  intro calls a ha
  cases ha

theorem Yields.andThen {P : α → Prop} {Q : β → Prop} {x : Build α} {f : α → Build β}
    (hx : Yields P x) (hf : ∀ a, P a → Yields Q (f a)) :
  Yields Q (x >>= f)
  := by
  intro calls b hb
  obtain ⟨a, ha, hfa⟩ := exists_of_bind_ok hb
  apply hf a (hx calls a ha) _ b hfa

theorem Yields.bind {P : β → Prop} (x : Build α) {f : α → Build β} (h : ∀ a, Yields P (f a)) :
  Yields P (x >>= f)
  := by
  have hx : Yields (fun _ => True) x := fun _ _ _ => trivial
  apply Yields.andThen (Q := P) hx
  intro a _
  apply h a

theorem fail_ne_pure (fault : Fault) (a : α) :
  (fail fault : Build α) ≠ Pure.pure a
  := by
  intro h
  have hresult := congrArg Outcome.result (congrFun h fun _ _ _ => .of (.error fault))
  cases hresult

theorem pure_injective : Function.Injective (Pure.pure : α → Build α) := by
  intro a b h
  have hresult := congrArg Outcome.result (congrFun h fun _ _ _ => .of (.ok .null))
  apply Except.ok.inj hresult

theorem fail_injective : Function.Injective (fail : Fault → Build α) := by
  intro fault cause h
  have hresult := congrArg Outcome.result (congrFun h fun _ _ _ => .of (.ok .null))
  apply Except.error.inj hresult

theorem fail_bind (fault : Fault) (f : α → Build β) :
  (fail fault : Build α) >>= f = fail fault
  := rfl

/-- What follows matters only on the results. -/
theorem Yields.bind_congr {P : α → Prop} {x : Build α} {f g : α → Build β} (h : Yields P x)
    (hfg : ∀ a, P a → f a = g a) :
  x >>= f = x >>= g
  := by
  ext calls
  have hx := h calls
  change Build.bind x f calls = Build.bind x g calls
  unfold Build.bind
  generalize x calls = o at hx ⊢
  obtain ⟨w, changes, result⟩ := o
  cases result with
  | error fault => rfl
  | ok a =>
    dsimp only
    rw [hfg a (hx a rfl)]

/-- What leaves every result as it is may be left out. -/
theorem Yields.bind_eq {P : α → Prop} {x : Build α} {f : α → Build α} (h : Yields P x)
    (hf : ∀ a, P a → f a = Pure.pure a) :
  x >>= f = x
  := by
  rw [h.bind_congr hf]
  apply bind_pure

theorem Yields.foldlM {P : α → Prop} {f : α → β → Build α} {items : List β}
    (h : ∀ a, ∀ b ∈ items, P a → Yields P (f a b)) {a : α} (ha : P a) :
  Yields P (items.foldlM f a)
  := by
  induction items generalizing a with
  | nil => apply Yields.pure ha
  | cons b items ih =>
    rw [List.foldlM_cons]
    obtain ⟨hb, hitems⟩ := List.forall_mem_cons.1 fun b hb a => h a b hb
    exact (hb a ha).andThen fun c hc => ih (fun a b hb => hitems b hb a) hc

/-! ### Builds that match -/

/-- Two builds report the same number of warnings and make the same changes, and either fail alike
or have related results. -/
def Matches (R : α → β → Prop) (x : Build α) (y : Build β) : Prop :=
  ∀ calls, (x calls).warnings = (y calls).warnings ∧ (x calls).changes = (y calls).changes ∧
    ((∃ fault, (x calls).result = .error fault ∧ (y calls).result = .error fault) ∨
      ∃ a b, (x calls).result = .ok a ∧ (y calls).result = .ok b ∧ R a b)

theorem Matches.refl (x : Build α) :
  Matches Eq x x
  := by
  intro calls
  use rfl, rfl
  cases h : (x calls).result with
  | error fault =>
    left
    use fault
  | ok a =>
    right
    use a, a

theorem Matches.pure {R : α → β → Prop} {a : α} {b : β} (h : R a b) :
  Matches R (Pure.pure a) (Pure.pure b)
  := by
  intro calls
  use rfl, rfl
  right
  use a, b, rfl, rfl

theorem Matches.bind {R : α → β → Prop} {S : γ → δ → Prop} {x : Build α} {y : Build β}
    {f : α → Build γ} {g : β → Build δ} (hxy : Matches R x y)
    (hfg : ∀ a b, R a b → Matches S (f a) (g b)) :
  Matches S (x >>= f) (y >>= g)
  := by
  intro calls
  have h := hxy calls
  change (Build.bind x f calls).warnings = (Build.bind y g calls).warnings ∧ _
  change _ ∧ (Build.bind x f calls).changes = (Build.bind y g calls).changes ∧ _
  rw [result_bind, result_bind]
  unfold Build.bind
  generalize x calls = o at h ⊢
  generalize y calls = o' at h ⊢
  obtain ⟨w, changes, result⟩ := o
  obtain ⟨w', changes', result'⟩ := o'
  obtain ⟨rfl, rfl, ⟨fault, rfl, rfl⟩ | ⟨a, b, rfl, rfl, hab⟩⟩ := h
  · use rfl, rfl
    left
    use fault
    exact ⟨rfl, rfl⟩
  · obtain ⟨hwarnings, hchanges, hresult⟩ := hfg a b hab (calls.after changes)
    use congrArg (w + ·) hwarnings, congrArg (changes ++ ·) hchanges
    apply hresult

theorem Matches.fail {R : α → β → Prop} (fault : Fault) :
  Matches R (Build.fail fault) (Build.fail fault)
  := by
  intro calls
  use rfl, rfl
  left
  use fault, rfl
  rfl

theorem Matches.mono {R S : α → β → Prop} {x : Build α} {y : Build β} (h : Matches R x y)
    (hRS : ∀ a b, R a b → S a b) :
  Matches S x y
  := by
  intro calls
  obtain ⟨hwarnings, hchanges, hresult⟩ := h calls
  use hwarnings, hchanges
  obtain hfault | ⟨a, b, ha, hb, hab⟩ := hresult
  · left
    apply hfault
  · right
    use a, b, ha, hb, hRS a b hab

theorem Matches.map_left {R : α → β → Prop} {S : γ → β → Prop} {x : Build α} {y : Build β}
    {f : α → γ} (h : Matches R x y) (hRS : ∀ a b, R a b → S (f a) b) :
  Matches S (f <$> x) y
  := by
  rw [map_eq_pure_bind, ← bind_pure y]
  apply h.bind
  intro a b hab
  apply Matches.pure (hRS a b hab)

/-- What calls nothing and has the same view of its results matches. -/
theorem Matches.of_map_eq {p : α → γ} {q : β → γ} {x : Except Fault α} {y : Except Fault β}
    (h : x.map p = y.map q) :
  Matches (fun a b => p a = q b) (liftM x) (liftM y)
  := by
  intro calls
  use rfl, rfl
  cases x with
  | error fault =>
    cases y with
    | error cause =>
      obtain rfl : fault = cause := Except.error.inj h
      left
      use fault
      exact ⟨rfl, rfl⟩
    | ok b => cases h
  | ok a =>
    cases y with
    | error cause => cases h
    | ok b =>
      right
      use a, b, rfl, rfl, Except.ok.inj h

/-- Results that match have what the second build yields. -/
theorem Matches.and_yields {R : α → β → Prop} {P : β → Prop} {x : Build α} {y : Build β}
    (h : Matches R x y) (hy : Yields P y) :
  Matches (fun a b => R a b ∧ P b) x y
  := by
  intro calls
  obtain ⟨hwarnings, hchanges, hresult⟩ := h calls
  use hwarnings, hchanges
  obtain hfault | ⟨a, b, ha, hb, hab⟩ := hresult
  · left
    apply hfault
  · right
    use a, b, ha, hb, hab, hy calls b hb

/-- A build matches itself, with results of which holds what it yields. -/
theorem Yields.matches {P : α → Prop} {x : Build α} (h : Yields P x) :
  Matches (fun a b => a = b ∧ P a) x x
  := by
  intro calls
  obtain ⟨hwarnings, hchanges, hresult⟩ := Matches.refl x calls
  use hwarnings, hchanges
  obtain hfault | ⟨a, b, ha, hb, rfl⟩ := hresult
  · left
    apply hfault
  · right
    use a, a, ha, hb, rfl, h calls a ha

/-- What goes on alike from related results makes one build of two that match. -/
theorem Matches.bind_eq {R : α → β → Prop} {x : Build α} {y : Build β} {f : α → Build γ}
    {g : β → Build γ} (hxy : Matches R x y) (hfg : ∀ a b, R a b → f a = g b) :
  x >>= f = y >>= g
  := by
  ext calls
  have h := hxy calls
  change Build.bind x f calls = Build.bind y g calls
  unfold Build.bind
  generalize x calls = o at h ⊢
  generalize y calls = o' at h ⊢
  obtain ⟨w, changes, result⟩ := o
  obtain ⟨w', changes', result'⟩ := o'
  obtain ⟨rfl, rfl, ⟨fault, rfl, rfl⟩ | ⟨a, b, rfl, rfl, hab⟩⟩ := h
  · rfl
  · dsimp only
    rw [hfg a b hab]
    rfl

/-- A build may be replaced by one with the same outcome in front of what matches. -/
theorem Matches.bind_same {R : β → γ → Prop} (x : Build α) {f : α → Build β} {g : α → Build γ}
    (h : ∀ a, Matches R (f a) (g a)) :
  Matches R (x >>= f) (x >>= g)
  := by
  apply (Matches.refl x).bind
  rintro a _ rfl
  apply h a

theorem Matches.foldlM {R : α → β → Prop} {f : α → γ → Build α} {g : β → γ → Build β}
    (h : ∀ a b c, R a b → Matches R (f a c) (g b c)) {a : α} {b : β} (hab : R a b)
    (items : List γ) :
  Matches R (items.foldlM f a) (items.foldlM g b)
  := by
  induction items generalizing a b with
  | nil => apply Matches.pure hab
  | cons c items ih =>
    rw [List.foldlM_cons, List.foldlM_cons]
    exact (h a b c hab).bind fun _ _ => ih

theorem Matches.exists_of_ok {R : α → β → Prop} {x : Build α} {y : Build β} (h : Matches R x y)
    {calls : Calls} {a : α} (ha : (x calls).result = .ok a) :
  ∃ b, (y calls).result = .ok b ∧ R a b
  := by
  obtain ⟨-, -, ⟨fault, hfault, -⟩ | ⟨a', b, ha', hb, hR⟩⟩ := h calls
  · rw [ha] at hfault
    cases hfault
  · obtain rfl : a = a' := Except.ok.inj (ha.symm.trans ha')
    use b

/-! ### Results after changes -/

/-- The build has the result `a` after some changes. -/
def Gives (x : Build α) (calls : Calls) (a : α) : Prop :=
  ∃ earlier, (x (calls.after earlier)).result = .ok a

theorem gives_of_ok {x : Build α} {calls : Calls} {a : α} (h : (x calls).result = .ok a) :
  Gives x calls a
  := ⟨[], h⟩

theorem Gives.of_after {x : Build α} {calls : Calls} {earlier : List Change} {a : α}
    (h : Gives x (calls.after earlier) a) :
  Gives x calls a
  := by
  obtain ⟨later, hlater⟩ := h
  rw [Calls.after_after] at hlater
  exact ⟨earlier ++ later, hlater⟩

/-- Every item of a list that is built is given by its own. -/
theorem gives_of_mapM {f : α → Build β} {items : List α} {calls : Calls} {bs : List β}
    (h : (items.mapM f calls).result = .ok bs) :
  List.Forall₂ (fun a b => Gives (f a) calls b) items bs
  := by
  induction items generalizing calls bs with
  | nil =>
    rw [List.mapM_nil] at h
    obtain rfl : [] = bs := Except.ok.inj h
    apply List.Forall₂.nil
  | cons a items ih =>
    rw [List.mapM_cons] at h
    obtain ⟨b, hb, hrest⟩ := exists_of_bind_ok h
    obtain ⟨cs, hcs, hlast⟩ := exists_of_bind_ok hrest
    obtain rfl : b :: cs = bs := Except.ok.inj hlast
    constructor
    · apply gives_of_ok hb
    · apply (ih hcs).imp
      intro c d hd
      apply hd.of_after

/-- The build has the result `a`, whatever is changed in place before. -/
def AlwaysGives (x : Build α) (calls : Calls) (a : α) : Prop :=
  ∀ earlier, (x (calls.after earlier)).result = .ok a

theorem AlwaysGives.pure (a : α) (calls : Calls) :
  AlwaysGives (Pure.pure a) calls a
  := fun _ => rfl

theorem AlwaysGives.bind {x : Build α} {f : α → Build β} {calls : Calls} {a : α} {b : β}
    (hx : AlwaysGives x calls a) (hf : AlwaysGives (f a) calls b) :
  AlwaysGives (x >>= f) calls b
  := by
  intro earlier
  rw [result_bind_of_ok (hx earlier), Calls.after_after]
  apply hf

/-! ### Builds without calls -/

/-- The outcome does not depend on what calls come to. -/
def CallsNothing (x : Build α) : Prop := ∀ calls others, x calls = x others

theorem CallsNothing.lift (x : Except Fault α) :
  CallsNothing (liftM x : Build α)
  := fun _ _ => rfl

theorem CallsNothing.pure (a : α) :
  CallsNothing (Pure.pure a)
  := fun _ _ => rfl

theorem CallsNothing.bind {x : Build α} {f : α → Build β} (hx : CallsNothing x)
    (hf : ∀ a, CallsNothing (f a)) :
  CallsNothing (x >>= f)
  := by
  intro calls others
  change Build.bind x f calls = Build.bind x f others
  unfold Build.bind
  rw [hx calls others]
  obtain ⟨w, changes, result⟩ := x others
  cases result with
  | error fault => rfl
  | ok a =>
    dsimp only
    rw [hf a (calls.after changes) (others.after changes)]

theorem CallsNothing.mapM {f : α → Build β} (h : ∀ a, CallsNothing (f a)) (items : List α) :
  CallsNothing (items.mapM f)
  := by
  induction items with
  | nil =>
    rw [List.mapM_nil]
    apply CallsNothing.pure
  | cons a items ih =>
    rw [List.mapM_cons]
    apply (h a).bind
    intro b
    apply ih.bind
    intro bs
    apply CallsNothing.pure

theorem CallsNothing.alwaysGives {x : Build α} (h : CallsNothing x) {calls : Calls} {a : α}
    (ha : (x calls).result = .ok a) :
  AlwaysGives x calls a
  := by
  intro earlier
  rw [h (calls.after earlier) calls]
  apply ha

/-! ### Builds that ask for nothing but what calls come to -/

/-- Where nothing is changed in place, the outcome depends on nothing but what calls come to before
any change. -/
def Settled (x : Build α) : Prop :=
  ∀ calls others : Calls, calls [] = others [] → (x calls).changes = [] → x others = x calls

theorem Settled.pure (a : α) :
  Settled (Pure.pure a)
  := fun _ _ _ _ => rfl

theorem Settled.lift (x : Except Fault α) :
  Settled (liftM x : Build α)
  := fun _ _ _ _ => rfl

theorem Settled.fail (fault : Fault) :
  Settled (Build.fail fault : Build α)
  := fun _ _ _ _ => rfl

theorem Settled.warn : Settled Build.warn := fun _ _ _ _ => rfl

theorem settled_call (f argument : Value) :
  Settled (Build.call f argument)
  := fun _ _ h _ => (congrFun (congrFun h f) argument).symm

theorem Settled.bind {x : Build α} {f : α → Build β} (hx : Settled x) (hf : ∀ a, Settled (f a)) :
  Settled (x >>= f)
  := by
  intro calls others h
  change (Build.bind x f calls).changes = [] → Build.bind x f others = Build.bind x f calls
  have hsame := hx calls others h
  unfold Build.bind
  generalize x calls = o at hsame ⊢
  obtain ⟨w, changes, result⟩ := o
  cases result with
  | error fault =>
    intro hnone
    rw [hsame (List.append_eq_nil_iff.1 hnone).1]
  | ok a =>
    intro hnone
    obtain ⟨rfl, hrest⟩ := List.append_eq_nil_iff.1 hnone
    rw [hsame rfl]
    exact congrArg (Outcome.andThen _) (hf a calls others h hrest)

/-! ### Builds that do not fail -/

/-- There is a result, whatever calls come to. -/
def Succeeds (x : Build α) : Prop := ∀ calls, ∃ a, (x calls).result = .ok a

theorem Succeeds.pure (a : α) :
  Succeeds (Pure.pure a)
  := by
  intro calls
  use a
  rfl

theorem Succeeds.bind {x : Build α} {f : α → Build β} (h : Succeeds x)
    (hf : ∀ a, Succeeds (f a)) :
  Succeeds (x >>= f)
  := by
  intro calls
  obtain ⟨a, ha⟩ := h calls
  obtain ⟨b, hb⟩ := hf a (calls.after (x calls).changes)
  use b
  rw [result_bind, ha]
  apply hb

theorem Succeeds.of_map_eq {x : Build α} {y : Build β} {p : α → γ} {q : β → γ} (h : Succeeds y)
    (hxy : p <$> x = q <$> y) :
  Succeeds x
  := by
  intro calls
  obtain ⟨b, hb⟩ := h calls
  have hcalls := congrArg Outcome.result (congrFun hxy calls)
  rw [map_apply, map_apply, hb] at hcalls
  cases ha : (x calls).result with
  | error fault =>
    rw [ha] at hcalls
    cases hcalls
  | ok a => use a

/-! ### Warnings -/

/-- Where there is a result, it has the property, and this many warnings were reported. -/
def Reports (n : Nat) (P : α → Prop) (x : Build α) : Prop :=
  ∀ calls a, (x calls).result = .ok a → (x calls).warnings = n ∧ P a

theorem Reports.mono {n : Nat} {P Q : α → Prop} {x : Build α} (h : Reports n P x)
    (hPQ : ∀ a, P a → Q a) :
  Reports n Q x
  := by
  intro calls a ha
  obtain ⟨hwarnings, hP⟩ := h calls a ha
  exact ⟨hwarnings, hPQ a hP⟩

theorem Reports.pure {P : α → Prop} {a : α} (h : P a) :
  Reports 0 P (Pure.pure a)
  := by
  intro calls b hb
  rw [← Except.ok.inj hb]
  exact ⟨rfl, h⟩

theorem Reports.lift {P : α → Prop} {x : Except Fault α} (h : ∀ a, x = .ok a → P a) :
  Reports 0 P (liftM x)
  := by
  intro calls a ha
  exact ⟨rfl, h a ha⟩

theorem Reports.bind {n m : Nat} {P : α → Prop} {Q : β → Prop} {x : Build α} {f : α → Build β}
    (hx : Reports n P x) (hf : ∀ a, P a → Reports m Q (f a)) :
  Reports (n + m) Q (x >>= f)
  := by
  intro calls b hb
  obtain ⟨a, ha, hfa⟩ := exists_of_bind_ok hb
  obtain ⟨hn, hP⟩ := hx calls a ha
  obtain ⟨hm, hQ⟩ := hf a hP _ b hfa
  constructor
  · change (Build.bind x f calls).warnings = n + m
    unfold Build.bind
    simp only [ha, Outcome.andThen]
    rw [hn, hm]
  · apply hQ

/-- What goes on without a warning leaves their number as it is. -/
theorem Reports.andThen {n : Nat} {P : α → Prop} {Q : β → Prop} {x : Build α} {f : α → Build β}
    (hx : Reports n P x) (hf : ∀ a, P a → Reports 0 Q (f a)) :
  Reports n Q (x >>= f)
  := hx.bind hf

/-! ### Builds that change nothing in place -/

/-- The build has the result `a` and changes nothing in place. -/
def ComesTo (x : Build α) (calls : Calls) (a : α) : Prop :=
  (x calls).result = .ok a ∧ (x calls).changes = []

theorem comesTo_pure {a b : α} {calls : Calls} :
  ComesTo (Pure.pure a) calls b ↔ a = b
  := by
  constructor
  · rintro ⟨h, -⟩
    apply Except.ok.inj h
  · rintro rfl
    exact ⟨rfl, rfl⟩

theorem comesTo_bind {x : Build α} {f : α → Build β} {calls : Calls} {b : β} :
  ComesTo (x >>= f) calls b ↔ ∃ a, ComesTo x calls a ∧ ComesTo (f a) calls b
  := by
  change ComesTo (Build.bind x f) calls b ↔ _
  unfold ComesTo Build.bind
  generalize x calls = o
  obtain ⟨w, changes, result⟩ := o
  cases result with
  | error fault =>
    constructor
    · rintro ⟨h, -⟩
      cases h
    · rintro ⟨a, ⟨h, -⟩, -⟩
      cases h
  | ok a =>
    constructor
    · rintro ⟨hb, hnone⟩
      obtain ⟨rfl, hrest⟩ := List.append_eq_nil_iff.1 hnone
      exact ⟨a, ⟨rfl, rfl⟩, hb, hrest⟩
    · rintro ⟨a', ⟨ha, hnone⟩, hb, hrest⟩
      obtain rfl : a = a' := Except.ok.inj ha
      obtain rfl : changes = [] := hnone
      exact ⟨hb, hrest⟩

/-- A sequence of two builds that changes nothing is the first one and then, where that has a
result, the second one. -/
theorem bind_of_unchanged {x : Build α} {f : α → Build β} {calls : Calls}
    (h : ((x >>= f) calls).changes = []) :
  (x calls).changes = [] ∧
    ((∃ fault, (x calls).result = .error fault ∧
        (x >>= f) calls = ⟨(x calls).warnings, [], .error fault⟩) ∨
      ∃ a, (x calls).result = .ok a ∧ (f a calls).changes = [] ∧
        (x >>= f) calls = ⟨(x calls).warnings + (f a calls).warnings, [], (f a calls).result⟩)
  := by
  change (Build.bind x f calls).changes = [] at h
  change _ ∧ ((∃ fault, _ ∧ Build.bind x f calls = _) ∨ ∃ a, _ ∧ _ ∧ Build.bind x f calls = _)
  unfold Build.bind at h ⊢
  generalize x calls = o at h ⊢
  obtain ⟨w, changes, result⟩ := o
  cases result with
  | error fault =>
    obtain ⟨rfl, -⟩ := List.append_eq_nil_iff.1 h
    use rfl
    left
    use fault, rfl
    rfl
  | ok a =>
    obtain ⟨rfl, hrest⟩ := List.append_eq_nil_iff.1 h
    use rfl
    right
    use a, rfl, hrest
    exact congrArg (Outcome.mk _ · _) hrest

theorem ComesTo.bind_iff {x : Build α} {f : α → Build β} {calls : Calls} {a : α} {b : β}
    (h : ComesTo x calls a) :
  ComesTo (x >>= f) calls b ↔ ComesTo (f a) calls b
  := by
  rw [comesTo_bind]
  constructor
  · rintro ⟨a', h', hb⟩
    obtain rfl : a = a' := Except.ok.inj (h.1.symm.trans h'.1)
    apply hb
  · intro hb
    use a

/-- A list is built without a change where each of its items is. -/
theorem comesTo_mapM {f : α → Build β} {items : List α} {calls : Calls} {bs : List β} :
  ComesTo (items.mapM f) calls bs ↔ List.Forall₂ (fun a b => ComesTo (f a) calls b) items bs
  := by
  induction items generalizing bs with
  | nil => rw [List.mapM_nil, comesTo_pure, List.forall₂_nil_left_iff, eq_comm]
  | cons a items ih =>
    rw [List.mapM_cons, List.forall₂_cons_left_iff]
    simp only [comesTo_bind, comesTo_pure, ih]
    constructor
    · rintro ⟨b, hb, cs, hcs, rfl⟩
      use b, cs
    · rintro ⟨b, cs, hb, hcs, rfl⟩
      use b, hb, cs

end Build

/-! ### Lists -/

variable {m : Type → Type} [Monad m] [LawfulMonad m] {α β γ : Type}

/-- Where every item has a result that is given by something related to it, so has the list. -/
theorem exists_mapM_eq_pure {f : α → m β} {g : γ → β} {R : α → γ → Prop} {items : List α}
    (each : ∀ a ∈ items, ∃ c, f a = pure (g c) ∧ R a c) :
  ∃ cs, items.mapM f = pure (cs.map g) ∧ List.Forall₂ R items cs
  := by
  induction items with
  | nil => exact ⟨[], rfl, .nil⟩
  | cons a items ih =>
    obtain ⟨ha, hitems⟩ := List.forall_mem_cons.1 each
    obtain ⟨c, hc, hR⟩ := ha
    obtain ⟨cs, hcs, hall⟩ := ih hitems
    use c :: cs
    constructor
    · rw [List.mapM_cons, hc, pure_bind, hcs, pure_bind, List.map_cons]
    · apply List.Forall₂.cons hR hall

/-- Of two related lists, every item of the second is related to one of the first. -/
theorem exists_of_forall₂ {R : α → γ → Prop} {items : List α} {cs : List γ}
    (hall : List.Forall₂ R items cs) :
  ∀ c ∈ cs, ∃ a ∈ items, R a c
  := by
  induction hall with
  | nil =>
    intro c hc
    cases hc
  | @cons a _ items _ h _ ih =>
    rw [List.forall_mem_cons]
    constructor
    · use a, List.mem_cons_self
    · intro c hc
      obtain ⟨b, hb, hR⟩ := ih c hc
      use b, List.mem_cons_of_mem a hb

/-- Two related lists are related alike to a third. -/
theorem forall₂_congr {δ : Type} {P : α → δ → Prop} {Q : β → δ → Prop} {as : List α} {bs : List β}
    (h : List.Forall₂ (fun a b => ∀ d, P a d ↔ Q b d) as bs) {ds : List δ} :
  List.Forall₂ P as ds ↔ List.Forall₂ Q bs ds
  := by
  induction h generalizing ds with
  | nil => rw [List.forall₂_nil_left_iff, List.forall₂_nil_left_iff]
  | cons hab _ ih => simp only [List.forall₂_cons_left_iff, hab, ih]

/-! ### Lists that may fail -/

/-- A list is built where every item is, and holds what they are built to. -/
theorem mapM_eq_ok_iff {f : α → Except Fault β} {items : List α} {bs : List β} :
  items.mapM f = .ok bs ↔ List.Forall₂ (fun a b => f a = .ok b) items bs
  := by
  induction items generalizing bs with
  | nil =>
    rw [List.mapM_nil, List.forall₂_nil_left_iff]
    constructor
    · intro h
      apply (Except.ok.inj h).symm
    · rintro rfl
      rfl
  | cons a items ih =>
    rw [List.mapM_cons, List.forall₂_cons_left_iff]
    cases ha : f a with
    | error fault =>
      constructor
      · intro h
        cases h
      · rintro ⟨b, bs, hb, -, -⟩
        cases hb
    | ok b =>
      cases hitems : items.mapM f with
      | error fault =>
        constructor
        · intro h
          cases h
        · rintro ⟨b, bs, -, hbs, -⟩
          rw [← ih, hitems] at hbs
          cases hbs
      | ok cs =>
        constructor
        · intro h
          obtain rfl : b :: cs = bs := Except.ok.inj h
          use b, cs, rfl, ih.1 hitems
        · rintro ⟨b', bs, hb, hbs, rfl⟩
          obtain rfl := Except.ok.inj hb
          rw [← ih, hitems] at hbs
          obtain rfl := Except.ok.inj hbs
          rfl

theorem mapM_append_of_ok {f : α → Except Fault β} {items : List α} {bs : List β}
    (h : items.mapM f = .ok bs) (others : List α) :
  (items ++ others).mapM f = (others.mapM f).map (bs ++ ·)
  := by
  rw [List.mapM_append, h]
  cases others.mapM f
  all_goals rfl

theorem mapM_append_of_error {f : α → Except Fault β} {items : List α} {fault : Fault}
    (h : items.mapM f = .error fault) (others : List α) :
  (items ++ others).mapM f = .error fault
  := by
  rw [List.mapM_append, h]
  rfl

/-- What a list in two parts is built to are the two lists that the parts are built to. -/
theorem exists_of_mapM_append {f : α → Except Fault β} {items others : List α} {bs : List β}
    (h : (items ++ others).mapM f = .ok bs) :
  ∃ cs ds, items.mapM f = .ok cs ∧ others.mapM f = .ok ds ∧ bs = cs ++ ds
  := by
  cases hitems : items.mapM f with
  | error fault =>
    rw [mapM_append_of_error hitems] at h
    cases h
  | ok cs =>
    rw [mapM_append_of_ok hitems] at h
    cases hothers : others.mapM f with
    | error fault =>
      rw [hothers] at h
      cases h
    | ok ds =>
      rw [hothers] at h
      use cs, ds, rfl, rfl, (Except.ok.inj h).symm

/-- Where building a list fails, it fails as the first item that fails. -/
theorem mapM_eq_error_iff {f : α → Except Fault β} {items : List α} {fault : Fault} :
  items.mapM f = .error fault ↔
    ∃ before a after, items = before ++ a :: after ∧ (∀ c ∈ before, ∃ b, f c = .ok b) ∧
      f a = .error fault
  := by
  constructor
  · intro h
    induction items with
    | nil => cases h
    | cons a items ih =>
      rw [List.mapM_cons] at h
      cases ha : f a with
      | error cause =>
        rw [ha] at h
        obtain rfl : cause = fault := Except.error.inj h
        use [], a, items, rfl, List.forall_mem_nil _
      | ok b =>
        have hitems : items.mapM f = .error fault := by
          rw [ha] at h
          cases hitems : items.mapM f with
          | error cause =>
            rw [hitems] at h
            apply h
          | ok bs =>
            rw [hitems] at h
            cases h
        obtain ⟨before, c, after, rfl, hbefore, hc⟩ := ih hitems
        use a :: before, c, after, rfl
        exact ⟨List.forall_mem_cons.2 ⟨⟨b, ha⟩, hbefore⟩, hc⟩
  · rintro ⟨before, a, after, rfl, hbefore, ha⟩
    obtain ⟨bs, hbs, -⟩ : ∃ bs, before.mapM f = pure (bs.map id) ∧
        List.Forall₂ (fun _ _ => True) before bs := by
      apply exists_mapM_eq_pure
      intro c hc
      obtain ⟨b, hb⟩ := hbefore c hc
      use b, hb
    rw [mapM_append_of_ok hbs, List.mapM_cons, ha]
    rfl

/-- Where every item is given by something or fails, the list is given by the same or fails as one
of its items. -/
theorem mapM_cases {f : α → Build β} {g : γ → β} {R : α → γ → Prop} {fault : α → Fault}
    {items : List α} (each : ∀ a ∈ items, (∃ c, f a = pure (g c) ∧ R a c) ∨ f a = .fail (fault a)) :
  (∃ cs, items.mapM f = pure (cs.map g) ∧ List.Forall₂ R items cs) ∨
    ∃ a ∈ items, f a = .fail (fault a) ∧ items.mapM f = .fail (fault a)
  := by
  induction items with
  | nil =>
    left
    use [], rfl, .nil
  | cons a items ih =>
    obtain ⟨ha, hitems⟩ := List.forall_mem_cons.1 each
    obtain ⟨c, hc, hR⟩ | hfail := ha
    · obtain ⟨cs, hcs, hall⟩ | ⟨d, hd, hlast, hfail⟩ := ih hitems
      · left
        use c :: cs
        constructor
        · rw [List.mapM_cons, hc, pure_bind, hcs, pure_bind, List.map_cons]
        · apply List.Forall₂.cons hR hall
      · right
        use d, List.mem_cons_of_mem a hd, hlast
        rw [List.mapM_cons, hc, pure_bind, hfail, Build.fail_bind]
    · right
      use a, List.mem_cons_self, hfail
      rw [List.mapM_cons, hfail, Build.fail_bind]

end SearchDsl
