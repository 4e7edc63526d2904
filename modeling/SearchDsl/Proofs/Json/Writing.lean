import Mathlib.Algebra.Group.Nat.Defs
import Mathlib.Tactic.SplitIfs
import Mathlib.Tactic.Use
import SearchDsl.Json.Writer
import SearchDsl.Proofs.Json.Grammar

/-!
# Writing JSON text

What the writer makes of data without doubles is JSON text and denotes that data
(`isText_chars`).  No text it makes of any data is empty (`chars_ne_nil`) or has a control
character in it (`visible_chars`), so that the text stands on one line.
-/

namespace SearchDsl

/-! ### Hexadecimal digits -/

theorem hexValue?_hexDigit {d : Nat} (h : d < 16) :
  hexValue? (hexDigit d) = some d
  := by
  revert d
  decide

theorem ofHexDigits?_concat (ds : List Char) (d : Char) :
  ofHexDigits? (ds ++ [d]) = (ofHexDigits? ds).bind fun n => (hexValue? d).map (16 * n + ·)
  := by
  simp [ofHexDigits?, List.foldlM_append]

@[simp]
theorem length_hexDigits (width n : Nat) :
  (hexDigits width n).length = width
  := by
  induction width generalizing n with
  | zero => rfl
  | succ width ih => simp [hexDigits, ih]

theorem ofHexDigits?_hexDigits {width n : Nat} (h : n < 16 ^ width) :
  ofHexDigits? (hexDigits width n) = some n
  := by
  induction width generalizing n with
  | zero =>
    obtain rfl : n = 0 := by simpa using h
    rfl
  | succ width ih =>
    have hn : n / 16 < 16 ^ width := by rw [Nat.pow_succ] at h; omega
    have hd : n % 16 < 16 := by omega
    rw [hexDigits, ofHexDigits?_concat, ih hn, Option.bind_some, hexValue?_hexDigit hd,
      Option.map_some]
    congr 1
    omega

/-! ### Decimal digits -/

namespace Decimal

theorem digitsOf_of_lt {n : Nat} (h : n < 10) :
  digitsOf n = [Nat.digitChar n]
  := Nat.toDigits_of_lt_base h

theorem digitsOf_of_le {n : Nat} (h : 10 ≤ n) :
  digitsOf n = digitsOf (n / 10) ++ [Nat.digitChar (n % 10)]
  := Nat.toDigits_of_base_le (by decide) h

theorem digitsOf_ne_nil (n : Nat) :
  digitsOf n ≠ []
  := Nat.toDigits_ne_nil

/-- Only zero is written with a zero at its start. -/
theorem head?_digitsOf {n : Nat} (h : n ≠ 0) :
  (digitsOf n).head? ≠ some '0'
  := by
  induction n using Nat.strongRecOn with
  | ind n ih =>
    by_cases hn : n < 10
    · have hdigit : ∀ d < 10, d ≠ 0 → [Nat.digitChar d].head? ≠ some '0' := by decide
      rw [digitsOf_of_lt hn]
      apply hdigit n hn h
    · have hhead := ih (n / 10) (by omega) (by omega)
      obtain ⟨d, ds, hds⟩ := List.exists_cons_of_ne_nil (digitsOf_ne_nil (n / 10))
      rw [digitsOf_of_le (by omega), hds]
      rwa [hds] at hhead

theorem signed_natAbs (n : Int) :
  signed (n < 0) n.natAbs = n
  := by
  unfold signed
  by_cases h : n < 0
  · rw [if_pos (decide_eq_true h)]
    omega
  · rw [if_neg (by simpa using h)]
    omega

end Decimal

namespace Json

open Decimal

theorem isWhole_digitsOf (n : Nat) :
  IsWhole (digitsOf n)
  := by
  constructor
  · constructor
    · apply digitsOf_ne_nil
    · intro c hc
      apply isDigit_of_mem_digitsOf hc
  · intro hzero
    by_cases h : n = 0
    · rw [h]
      rfl
    · exact absurd hzero (head?_digitsOf h)

theorem isNumber_intText (n : Int) :
  IsNumber (intText n) (.int n)
  := by
  have h := IsNumber.mk (n < 0) (isWhole_digitsOf n.natAbs) .absent .absent
  simpa [ofParts, intText, signed_natAbs] using h

/-! ### Strings -/

theorem isCodeUnit_hexDigits {n : Nat} (h : n < 0x10000) :
  IsCodeUnit (hexDigits 4 n) n
  := by
  constructor
  · apply length_hexDigits
  · apply ofHexDigits?_hexDigits h

/-- A character is written with its letter, with its code unit, or as it is. -/
theorem escape_cases (c : Char) :
  (∃ letter, (letter, c) ∈ escapes ∧ 0x20 ≤ letter.toNat ∧ escape .compact c = ['\\', letter])
    ∨ (c.toNat < 0x20 ∧ escape .compact c = unitEscape c.toNat)
    ∨ (0x20 ≤ c.toNat ∧ c ≠ '"' ∧ c ≠ '\\' ∧ escape .compact c = [c])
  := by
  by_cases hquote : c = '"'
  · left
    rw [hquote]
    use '"', by decide, by decide
    rfl
  by_cases hmark : c = '\\'
  · left
    rw [hmark]
    use '\\', by decide, by decide
    rfl
  by_cases hline : c = '\n'
  · left
    rw [hline]
    use 'n', by decide, by decide
    rfl
  by_cases hreturn : c = '\r'
  · left
    rw [hreturn]
    use 'r', by decide, by decide
    rfl
  by_cases htab : c = '\t'
  · left
    rw [htab]
    use 't', by decide, by decide
    rfl
  by_cases hback : c = '\x08'
  · left
    rw [hback]
    use 'b', by decide, by decide
    rfl
  by_cases hfeed : c = '\x0c'
  · left
    rw [hfeed]
    use 'f', by decide, by decide
    rfl
  have hrest : escape .compact c = if c.toNat < 0x20 then codeEscape c else [c] := by
    rw [escape, if_neg hquote, if_neg hmark, if_neg hline, if_neg hreturn, if_neg htab,
      if_neg hback, if_neg hfeed]
    rfl
  by_cases hcontrol : c.toNat < 0x20
  · have hunit : c.toNat < 0x10000 := by omega
    right
    left
    rw [hrest, if_pos hcontrol, codeEscape, if_pos hunit]
    exact ⟨hcontrol, rfl⟩
  · right
    right
    rw [hrest, if_neg hcontrol]
    exact ⟨by omega, hquote, hmark, rfl⟩

theorem isChar_escape (c : Char) :
  IsChar (escape .compact c) c
  := by
  obtain ⟨letter, known, -, heq⟩ | ⟨hcontrol, heq⟩ | ⟨hvisible, hquote, hmark, heq⟩ := escape_cases c
  · rw [heq]
    apply IsChar.escape known
  · have hunit := isCodeUnit_hexDigits (n := c.toNat) (by omega)
    have h := IsChar.unit hunit (by omega)
    rw [Char.ofNat_toNat] at h
    rw [heq]
    apply h
  · rw [heq]
    apply IsChar.plain hvisible hquote hmark

theorem isString_quoted (s : String) :
  IsString (quoted .compact s) s
  := by
  have h : ∀ cs : List Char, IsChars (cs.flatMap (escape .compact)) cs := by
    intro cs
    induction cs with
    | nil => apply IsChars.nil
    | cons c cs ih =>
      rw [List.flatMap_cons]
      apply IsChars.cons (isChar_escape c) ih
  have hs := IsString.mk (h s.toList)
  rw [String.ofList_toList] at hs
  apply hs

/-! ### Values -/

/-- There is no double in the data, and no object repeats a name. -/
inductive Exact : Json → Prop where
  | null : Exact .null
  | bool (b : Bool) : Exact (.bool b)
  | int (n : Int) : Exact (.int n)
  | str (s : String) : Exact (.str s)
  | arr {items : List Json} (each : ∀ j ∈ items, Exact j) : Exact (.arr items)
  | obj {fields : List (String × Json)} (distinct : Entries.Distinct fields)
      (each : ∀ f ∈ fields, Exact f.2) : Exact (.obj fields)

theorem blanks_nil : Blanks [] := by
  intro c hc
  cases hc

theorem spells_items (j : Json) (items : List Json)
    (each : ∀ i ∈ j :: items, Spells (chars .compact i) (.value i)) :
  Spells (chars .compact j ++ itemsChars .compact items) (.items (j :: items))
  := by
  have hj := each j List.mem_cons_self
  induction items generalizing j with
  | nil =>
    have h := Spells.lastItem blanks_nil hj blanks_nil
    simpa [itemsChars] using h
  | cons i items ih =>
    have hothers := ih i (fun k hk => each k (List.mem_cons_of_mem j hk))
      (each i (List.mem_cons_of_mem j List.mem_cons_self))
    have h := Spells.item blanks_nil hj blanks_nil hothers
    simpa [itemsChars, Style.compact] using h

theorem spells_fields (name : String) (j : Json) (fields : List (String × Json))
    (each : ∀ f ∈ (name, j) :: fields, Spells (chars .compact f.2) (.value f.2)) :
  Spells (quoted .compact name ++ ':' :: (chars .compact j ++ fieldsChars .compact fields))
    (.fields ((name, j) :: fields))
  := by
  have hj := each (name, j) List.mem_cons_self
  have hname := isString_quoted name
  induction fields generalizing name j with
  | nil =>
    have h := Spells.lastField blanks_nil hname blanks_nil blanks_nil hj blanks_nil
    simpa [fieldsChars] using h
  | cons f fields ih =>
    have hothers := ih f.1 f.2 (fun g hg => each g (List.mem_cons_of_mem _ hg))
      (each f (List.mem_cons_of_mem _ List.mem_cons_self)) (isString_quoted f.1)
    have h := Spells.field blanks_nil hname blanks_nil blanks_nil hj blanks_nil hothers
    simpa [fieldsChars, Style.compact] using h

theorem spells_chars {j : Json} (h : Exact j) :
  Spells (chars .compact j) (.value j)
  := by
  induction h with
  | null => apply Spells.null
  | bool b =>
    cases b with
    | true => apply Spells.true
    | false => apply Spells.false
  | int n => apply Spells.number (isNumber_intText n)
  | str s => apply Spells.string (isString_quoted s)
  | @arr items each ih =>
    cases items with
    | nil =>
      have h := Spells.emptyArray blanks_nil
      simpa [chars] using h
    | cons i items =>
      have h := Spells.array (spells_items i items ih)
      simpa [chars] using h
  | @obj fields distinct each ih =>
    cases fields with
    | nil =>
      have h := Spells.emptyObject blanks_nil
      simpa [chars] using h
    | cons f fields =>
      have h := Spells.object (spells_fields f.1 f.2 fields ih) distinct
      simpa [chars, Style.compact] using h

/-- What the writer makes of data without doubles is JSON text that denotes the data. -/
theorem isText_chars {j : Json} (h : Exact j) :
  IsText (chars .compact j) j
  := by
  have htext := IsText.mk blanks_nil (spells_chars h) blanks_nil
  simpa using htext

/-! ### Lines -/

/-- No character is a control character. -/
def Visible (cs : List Char) : Prop := ∀ c ∈ cs, 0x20 ≤ c.toNat

instance (cs : List Char) : Decidable (Visible cs) :=
  List.decidableBAll _ cs

@[simp]
theorem visible_nil : Visible [] := by
  intro c hc
  cases hc

@[simp]
theorem visible_cons {c : Char} {cs : List Char} :
  Visible (c :: cs) ↔ 0x20 ≤ c.toNat ∧ Visible cs
  := List.forall_mem_cons

@[simp]
theorem visible_append {cs ds : List Char} :
  Visible (cs ++ ds) ↔ Visible cs ∧ Visible ds
  := List.forall_mem_append

theorem Visible.subset {cs ds : List Char} (h : Visible ds) (hsub : cs ⊆ ds) :
  Visible cs
  := by
  intro c hc
  apply h c (hsub hc)

theorem Visible.noLineBreak {cs : List Char} (h : Visible cs) :
  '\n' ∉ cs
  := by
  intro hc
  have hbreak : ¬0x20 ≤ '\n'.toNat := by decide
  apply hbreak (h '\n' hc)

theorem visible_signText (negative : Bool) :
  Visible (signText negative)
  := by
  cases negative with
  | false => apply visible_nil
  | true => decide

theorem visible_digitsOf (n : Nat) :
  Visible (digitsOf n)
  := by
  intro c hc
  have h := isDigit_of_mem_digitsOf hc
  simp only [Char.isDigit, Bool.and_eq_true, decide_eq_true_eq, UInt32.le_iff_toNat_le] at h
  apply Nat.le_trans (by decide) h.1

theorem visible_intText (n : Int) :
  Visible (intText n)
  := visible_append.2 ⟨visible_signText _, visible_digitsOf _⟩

theorem visible_replicate (n : Nat) :
  Visible (List.replicate n '0')
  := by
  intro c hc
  rw [(List.mem_replicate.1 hc).2]
  decide

theorem visible_exponentText (x : Int) :
  Visible (exponentText x)
  := by
  have hdigits := visible_digitsOf x.natAbs
  unfold exponentText
  dsimp only
  split_ifs
  · simp [hdigits]
  · simp [hdigits]
  · simp [hdigits]
  · simp [hdigits]

theorem visible_positionalText {ds : List Char} (h : Visible ds) (point : Int) :
  Visible (positionalText ds point)
  := by
  unfold positionalText
  dsimp only
  split_ifs
  · simp [h, visible_replicate]
  · simp [h, visible_replicate]
  · have htake := h.subset (List.take_subset point.toNat ds)
    have hdrop := h.subset (List.drop_subset point.toNat ds)
    simp [htake, hdrop]

theorem visible_scientificText {ds : List Char} (h : Visible ds) (point : Int) :
  Visible (scientificText ds point)
  := by
  have hexponent := visible_exponentText (point - 1)
  unfold scientificText
  split
  · decide
  · simp_all
  · simp_all

theorem visible_floatText (x : Float) :
  Visible (Layout.json.text x)
  := by
  unfold Layout.text
  cases Binary.ofFloat x with
  | notANumber => decide
  | infinite negative =>
    rw [Binary.text, visible_append]
    exact ⟨visible_signText negative, by decide⟩
  | finite negative m q =>
    have hdigits : Visible (shortest m q).digits := by
      unfold shortest dropTrailingZeros
      intro c hc
      rw [List.mem_reverse] at hc
      apply visible_digitsOf _ c (List.mem_reverse.1 ((List.dropWhile_suffix _).subset hc))
    rw [Binary.text, visible_append]
    constructor
    · apply visible_signText
    · unfold Significand.text
      dsimp only
      split_ifs
      · decide
      · apply visible_positionalText hdigits
      · apply visible_scientificText hdigits

theorem visible_hexDigits (width n : Nat) :
  Visible (hexDigits width n)
  := by
  have hdigit : ∀ d < 16, 0x20 ≤ (hexDigit d).toNat := by decide
  induction width generalizing n with
  | zero => apply visible_nil
  | succ width ih =>
    have hn := hdigit (n % 16) (by omega)
    simp [hexDigits, ih, hn]

theorem visible_codeEscape (c : Char) :
  Visible (codeEscape c)
  := by
  unfold codeEscape
  dsimp only
  split_ifs
  · simp [unitEscape, visible_hexDigits]
  · simp [unitEscape, visible_hexDigits]

theorem visible_ite {p : Prop} [Decidable p] {cs ds : List Char} (hcs : Visible cs)
    (hds : ¬p → Visible ds) :
  Visible (if p then cs else ds)
  := by
  split
  · apply hcs
  · rename_i hp
    apply hds hp

theorem visible_escape (style : Style) (c : Char) :
  Visible (escape style c)
  := by
  unfold escape
  -- The characters with letters of their own come first.
  iterate 7 refine visible_ite (by decide) fun _ => ?_
  refine visible_ite (visible_codeEscape c) fun hcontrol => ?_
  refine visible_ite (visible_codeEscape c) fun _ => ?_
  rw [visible_cons]
  exact ⟨Nat.le_of_not_lt hcontrol, visible_nil⟩

theorem visible_quoted (style : Style) (s : String) :
  Visible (quoted style s)
  := by
  have hs : Visible (s.toList.flatMap (escape style)) := by
    intro c hc
    obtain ⟨d, -, hd⟩ := List.mem_flatMap.1 hc
    apply visible_escape style d c hd
  simp [quoted, hs]

/-- The blanks of a style are no control characters. -/
def Style.Visible (style : Style) : Prop :=
  Json.Visible style.afterComma ∧ Json.Visible style.afterColon

variable {style : Style}

mutual

/-- The text of any data is without control characters. -/
theorem visible_chars (hstyle : style.Visible) : (j : Json) →
  Visible (chars style j)
  | .null => by
    rw [chars]
    decide
  | .bool true => by
    rw [chars]
    decide
  | .bool false => by
    rw [chars]
    decide
  | .int n => by
    rw [chars]
    apply visible_intText
  | .float x => by
    rw [chars]
    apply visible_floatText
  | .str s => by
    rw [chars]
    apply visible_quoted
  | .arr [] => by
    rw [chars]
    decide
  | .arr (j :: items) => by
    have hj := visible_chars hstyle j
    have hitems := visible_itemsChars hstyle items
    simp [chars, hj, hitems]
  | .obj [] => by
    rw [chars]
    decide
  | .obj ((name, j) :: fields) => by
    have hj := visible_chars hstyle j
    have hfields := visible_fieldsChars hstyle fields
    simp [chars, visible_quoted, hstyle.2, hj, hfields]

theorem visible_itemsChars (hstyle : style.Visible) : (items : List Json) →
  Visible (itemsChars style items)
  | [] => visible_nil
  | j :: items => by
    have hj := visible_chars hstyle j
    have hitems := visible_itemsChars hstyle items
    simp [itemsChars, hstyle.1, hj, hitems]

theorem visible_fieldsChars (hstyle : style.Visible) : (fields : List (String × Json)) →
  Visible (fieldsChars style fields)
  | [] => visible_nil
  | (name, j) :: fields => by
    have hj := visible_chars hstyle j
    have hfields := visible_fieldsChars hstyle fields
    simp [fieldsChars, visible_quoted, hstyle.1, hstyle.2, hj, hfields]

end

theorem Style.visible_compact : Style.compact.Visible := by
  constructor
  · apply visible_nil
  · apply visible_nil

theorem positionalText_ne_nil (ds : List Char) (point : Int) :
  positionalText ds point ≠ []
  := by
  unfold positionalText
  dsimp only
  split_ifs
  · apply List.cons_ne_nil
  · apply List.append_ne_nil_of_right_ne_nil
    apply List.cons_ne_nil
  · apply List.append_ne_nil_of_right_ne_nil
    apply List.cons_ne_nil

theorem scientificText_ne_nil (ds : List Char) (point : Int) :
  scientificText ds point ≠ []
  := by
  unfold scientificText
  split
  · apply List.cons_ne_nil
  · apply List.cons_ne_nil
  · apply List.cons_ne_nil

theorem floatText_ne_nil (x : Float) :
  Layout.json.text x ≠ []
  := by
  unfold Layout.text
  cases Binary.ofFloat x with
  | notANumber => decide
  | infinite negative =>
    apply List.append_ne_nil_of_right_ne_nil
    decide
  | finite negative m q =>
    apply List.append_ne_nil_of_right_ne_nil
    unfold Significand.text
    dsimp only
    split_ifs
    · apply List.cons_ne_nil
    · apply positionalText_ne_nil
    · apply scientificText_ne_nil

/-- The text of any data is not empty. -/
theorem chars_ne_nil (style : Style) (j : Json) :
  chars style j ≠ []
  := by
  cases j with
  | null => apply List.cons_ne_nil
  | bool b =>
    cases b with
    | false => apply List.cons_ne_nil
    | true => apply List.cons_ne_nil
  | int n =>
    rw [chars]
    apply List.append_ne_nil_of_right_ne_nil
    apply digitsOf_ne_nil
  | float x =>
    rw [chars]
    apply floatText_ne_nil
  | str s => apply List.cons_ne_nil
  | arr items =>
    cases items with
    | nil => apply List.cons_ne_nil
    | cons j items =>
      rw [chars]
      apply List.cons_ne_nil
  | obj fields =>
    cases fields with
    | nil => apply List.cons_ne_nil
    | cons f fields =>
      rw [chars]
      apply List.cons_ne_nil

end Json

end SearchDsl
