import Mathlib.Tactic.Use
import SearchDsl.Json.Reader
import SearchDsl.Proofs.Entries
import SearchDsl.Proofs.Json.Grammar

/-!
# Reading JSON text

The reader accepts every JSON text and returns what the text denotes (`parse_of_isText`), so
that no text denotes two things.  Each part of the grammar is read in front of whatever does
not continue it: strings up to their closing quote, numbers up to a character that belongs to
no number, values up to such a character as well.
-/

namespace SearchDsl

namespace Json

open Decimal

/-! ### Blanks -/

theorem skipBlanks_of_blanks {bs : List Char} (h : Blanks bs) (cs : List Char) :
  skipBlanks (bs ++ cs) = skipBlanks cs
  := by
  induction bs with
  | nil => rfl
  | cons b bs ih =>
    have hb := h b List.mem_cons_self
    rw [List.cons_append, skipBlanks, if_pos hb]
    apply ih
    intro c hc
    apply h c (List.mem_cons_of_mem b hc)

theorem skipBlanks_eq_nil {bs : List Char} (h : Blanks bs) :
  skipBlanks bs = []
  := by
  rw [← List.append_nil bs, skipBlanks_of_blanks h]
  rfl

/-- The character starts no blank. -/
def Solid (c : Char) : Prop := ¬(c = ' ' ∨ c = '\t' ∨ c = '\n' ∨ c = '\r')

theorem skipBlanks_of_solid {c : Char} (h : Solid c) (cs : List Char) :
  skipBlanks (c :: cs) = c :: cs
  := by
  rw [skipBlanks, if_neg h]

/-! ### Strings -/

theorem readString_plain {c : Char} (visible : 0x20 ≤ c.toNat) (not_quote : c ≠ '"')
    (not_mark : c ≠ '\\') (rest : List Char) :
  readString (c :: rest) = consChar c (readString rest)
  := by
  have hcontrol : ¬c.toNat < 0x20 := by omega
  rw [readString, if_neg hcontrol]
  · apply not_quote
  · intro _ _ _ _ _ hmark
    apply absurd hmark not_mark
  · intro _ _ hmark
    apply absurd hmark not_mark

theorem readString_escape {letter c : Char} (known : (letter, c) ∈ escapes) (rest : List Char) :
  readString ('\\' :: letter :: rest) = consChar c (readString rest)
  := by
  simp only [escapes, List.mem_cons, Prod.mk.injEq, List.not_mem_nil, or_false] at known
  rcases known with ⟨rfl, rfl⟩ | ⟨rfl, rfl⟩ | ⟨rfl, rfl⟩ | ⟨rfl, rfl⟩ | ⟨rfl, rfl⟩ | ⟨rfl, rfl⟩ |
    ⟨rfl, rfl⟩ | ⟨rfl, rfl⟩ <;> simp [readString, unescape?]

/-- The four digits of a code unit. -/
theorem IsCodeUnit.exists_digits {ds : List Char} {n : Nat} (h : IsCodeUnit ds n) :
  ∃ a b c d, ds = [a, b, c, d]
  := by
  obtain ⟨hlength, -⟩ := h
  match ds, hlength with
  | [a, b, c, d], _ => use a, b, c, d

theorem readString_char {cs : List Char} {c : Char} (h : IsChar cs c) (rest : List Char) :
  readString (cs ++ rest) = consChar c (readString rest)
  := by
  cases h with
  | plain visible not_quote not_mark => apply readString_plain visible not_quote not_mark
  | escape known => apply readString_escape known
  | @unit ds n digits single =>
    obtain ⟨a, b, c, d, rfl⟩ := digits.exists_digits
    have hhigh : ¬(0xD800 ≤ n ∧ n < 0xDC00) := by omega
    have hlow : ¬(0xDC00 ≤ n ∧ n < 0xE000) := by omega
    simp only [List.cons_append, List.nil_append, readString, digits.2, if_neg hhigh, if_neg hlow]
  | @pair ds es high low first second is_high is_low =>
    obtain ⟨a, b, c, d, rfl⟩ := first.exists_digits
    obtain ⟨e, f, g, h, rfl⟩ := second.exists_digits
    simp only [List.cons_append, List.nil_append, readString, first.2, second.2, if_pos is_high,
      if_pos is_low, ofUnits]

theorem readString_chars {cs s : List Char} (h : IsChars cs s) (rest : List Char) :
  readString (cs ++ '"' :: rest) = some (s, rest)
  := by
  induction h with
  | nil => simp [readString]
  | cons first others ih =>
    rw [List.append_assoc, readString_char first, ih]
    rfl

/-- A string is read up to its closing quote. -/
theorem readString_string {cs : List Char} {s : String} (h : IsString cs s) (rest : List Char) :
  ∃ ds, cs ++ rest = '"' :: ds ∧ readString ds = some (s.toList, rest)
  := by
  obtain @⟨cs, s, inside⟩ := h
  use cs ++ '"' :: rest
  constructor
  · simp
  · rw [readString_chars inside, String.toList_ofList]

/-! ### Numbers -/

/-- The text does not continue a number. -/
def Ends (rest : List Char) : Prop :=
  ∀ c, rest.head? = some c → c.isDigit = false ∧ c ≠ '.' ∧ c ≠ 'e' ∧ c ≠ 'E'

theorem ends_nil : Ends [] := by
  intro c h
  cases h

theorem ends_cons {c : Char} (h : c.isDigit = false ∧ c ≠ '.' ∧ c ≠ 'e' ∧ c ≠ 'E')
    (rest : List Char) :
  Ends (c :: rest)
  := by
  intro d hd
  obtain rfl := Option.some.inj hd
  apply h

theorem ends_of_blanks {bs rest : List Char} (hb : Blanks bs) (h : Ends rest) :
  Ends (bs ++ rest)
  := by
  cases bs with
  | nil => apply h
  | cons b bs =>
    apply ends_cons
    rcases hb b List.mem_cons_self with rfl | rfl | rfl | rfl <;> decide

/-- The text starts with no digit. -/
def NoDigit (rest : List Char) : Prop := ∀ c, rest.head? = some c → c.isDigit = false

theorem Ends.noDigit {rest : List Char} (h : Ends rest) :
  NoDigit rest
  := fun c hc => (h c hc).1

theorem takeWhile_isDigit {ds rest : List Char} (hd : ∀ c ∈ ds, c.isDigit) (h : NoDigit rest) :
  (ds ++ rest).takeWhile Char.isDigit = ds
  := by
  rw [List.takeWhile_append_of_pos hd]
  cases rest with
  | nil => simp
  | cons c rest => simp [h c rfl]

theorem dropWhile_isDigit {ds rest : List Char} (hd : ∀ c ∈ ds, c.isDigit) (h : NoDigit rest) :
  (ds ++ rest).dropWhile Char.isDigit = rest
  := by
  rw [List.dropWhile_append_of_pos hd]
  cases rest with
  | nil => rfl
  | cons c rest => simp [h c rfl]

theorem readPlaces_places {fs : List Char} {places : Option (List Char)} (h : IsPlaces fs places)
    {rest : List Char} (hrest : NoDigit rest) (hpoint : rest.head? ≠ some '.') :
  readPlaces (fs ++ rest) = some (places, rest)
  := by
  cases h with
  | absent =>
    rw [List.nil_append, readPlaces.eq_def]
    split <;> simp_all
  | present digits =>
    simp [readPlaces, takeWhile_isDigit digits.2 hrest, dropWhile_isDigit digits.2 hrest, digits.1]

theorem splitSign_sign {sign ds : List Char} {negative : Bool} (h : IsSign sign negative)
    (hd : IsDigits ds) (rest : List Char) :
  splitSign (sign ++ (ds ++ rest)) = (negative, ds ++ rest)
  := by
  cases h with
  | plus => rfl
  | minus => rfl
  | absent =>
    obtain ⟨hne, hall⟩ := hd
    match ds with
    | d :: ds =>
      have hdigit := hall d List.mem_cons_self
      simp only [List.nil_append, List.cons_append]
      rw [splitSign.eq_def]
      split <;> simp_all

theorem readExponent_exponent {es : List Char} {exponent : Option Int}
    (h : IsExponent es exponent) {rest : List Char} (hrest : Ends rest) :
  readExponent (es ++ rest) = some (exponent, rest)
  := by
  cases h with
  | absent =>
    cases rest with
    | nil => rfl
    | cons c rest =>
      obtain ⟨-, -, he, hE⟩ := hrest c rfl
      simp [readExponent, he, hE]
  | @present mark sign ds negative marked signed digits =>
    rw [List.cons_append, List.append_assoc, readExponent, if_pos marked,
      splitSign_sign signed digits]
    simp [takeWhile_isDigit digits.2 hrest.noDigit, dropWhile_isDigit digits.2 hrest.noDigit,
      digits.1]

theorem noDigit_exponent {es : List Char} {exponent : Option Int} (h : IsExponent es exponent)
    {rest : List Char} (hrest : Ends rest) :
  NoDigit (es ++ rest) ∧ (es ++ rest).head? ≠ some '.'
  := by
  cases h with
  | absent =>
    constructor
    · apply hrest.noDigit
    · intro hc
      apply (hrest '.' hc).2.1 rfl
  | present marked =>
    rcases marked with rfl | rfl
    · simp [NoDigit]
    · simp [NoDigit]

theorem noDigit_places {fs : List Char} {places : Option (List Char)} (h : IsPlaces fs places)
    {rest : List Char} (hrest : NoDigit rest) :
  NoDigit (fs ++ rest)
  := by
  cases h with
  | absent => apply hrest
  | present => simp [NoDigit]

theorem readUnsigned_parts {whole fs es : List Char} {places : Option (List Char)}
    {exponent : Option Int} (negative : Bool) (is_whole : IsWhole whole)
    (is_places : IsPlaces fs places) (is_exponent : IsExponent es exponent) {rest : List Char}
    (hrest : Ends rest) :
  readUnsigned negative (whole ++ (fs ++ (es ++ rest)))
    = some (ofParts negative whole places exponent, rest)
  := by
  obtain ⟨⟨hne, hall⟩, hzero⟩ := is_whole
  obtain ⟨hexponent, hpoint⟩ := noDigit_exponent is_exponent hrest
  have hplaces := noDigit_places is_places hexponent
  have hwhole : (whole.isEmpty || (whole.head? == some '0' && whole.length != 1)) = false := by
    by_cases h : whole.head? = some '0'
    · simp [hzero h]
    · simp [h, hne]
  rw [readUnsigned]
  simp only [takeWhile_isDigit hall hplaces, dropWhile_isDigit hall hplaces,
    readPlaces_places is_places hexponent hpoint, readExponent_exponent is_exponent hrest,
    Option.bind_eq_bind, Option.bind_some, hwhole, ofParts]
  cases places.isNone && exponent.isNone with
  | false => rfl
  | true => rfl

/-- A number is read up to a character that belongs to no number. -/
theorem readNumber_number {cs : List Char} {j : Json} (h : IsNumber cs j) {rest : List Char}
    (hrest : Ends rest) :
  readNumber (cs ++ rest) = some (j, rest)
  := by
  obtain @⟨whole, fs, es, places, exponent, negative, is_whole, is_places, is_exponent⟩ := h
  have hread := readUnsigned_parts negative is_whole is_places is_exponent hrest
  obtain ⟨⟨hne, hall⟩, -⟩ := is_whole
  match whole with
  | d :: ds =>
    have hdigit : d.isDigit := hall d List.mem_cons_self
    have hminus : d ≠ '-' := by rintro rfl; cases hdigit
    have hword : d ≠ 'I' := by rintro rfl; cases hdigit
    simp only [List.append_assoc]
    rw [readNumber]
    cases negative with
    | false => simpa [signText, hminus, hword] using hread
    | true => simpa [signText, hword] using hread

/-! ### Values -/

theorem IsNumber.exists_head {cs : List Char} {j : Json} (h : IsNumber cs j) :
  ∃ c ds, cs = c :: ds ∧ (c.isDigit ∨ c = '-')
  := by
  obtain @⟨whole, fs, es, places, exponent, negative, ⟨⟨hne, hall⟩, -⟩, -, -⟩ := h
  match whole with
  | d :: ds =>
    cases negative with
    | false => exact ⟨d, _, rfl, .inl (hall d List.mem_cons_self)⟩
    | true => exact ⟨'-', _, rfl, .inr rfl⟩

theorem solid_of_number {c : Char} (h : c.isDigit ∨ c = '-') :
  Solid c
  := by
  rintro (rfl | rfl | rfl | rfl) <;> revert h <;> decide

/-- No value starts with a blank or with the mark that ends an array. -/
theorem exists_head_of_spells {cs : List Char} {j : Json} (h : Spells cs (.value j)) :
  ∃ c ds, cs = c :: ds ∧ Solid c ∧ c ≠ ']'
  := by
  cases h with
  | number h =>
    obtain ⟨c, ds, rfl, hc⟩ := h.exists_head
    use c, ds, rfl, solid_of_number hc
    rintro rfl
    revert hc
    decide
  | string h =>
    obtain ⟨-⟩ := h
    exact ⟨_, _, rfl, by unfold Solid; decide, by decide⟩
  | _ => exact ⟨_, _, rfl, by unfold Solid; decide, by decide⟩

theorem skipBlanks_skipBlanks (cs : List Char) :
  skipBlanks (skipBlanks cs) = skipBlanks cs
  := by
  induction cs with
  | nil => rfl
  | cons c cs ih =>
    by_cases h : c = ' ' ∨ c = '\t' ∨ c = '\n' ∨ c = '\r'
    · rw [skipBlanks, if_pos h, ih]
    · rw [skipBlanks_of_solid h, skipBlanks_of_solid h]

theorem readValue_skipBlanks (fuel : Nat) (cs : List Char) :
  readValue fuel (skipBlanks cs) = readValue fuel cs
  := by
  cases fuel with
  | zero => rfl
  | succ fuel => rw [readValue, readValue, skipBlanks_skipBlanks]

theorem readValue_of_blanks (fuel : Nat) {bs : List Char} (h : Blanks bs) (cs : List Char) :
  readValue fuel (bs ++ cs) = readValue fuel cs
  := by
  rw [← readValue_skipBlanks, skipBlanks_of_blanks h, readValue_skipBlanks]

theorem readItems_skipBlanks (fuel : Nat) (cs : List Char) :
  readItems fuel (skipBlanks cs) = readItems fuel cs
  := by
  cases fuel with
  | zero => rfl
  | succ fuel => rw [readItems, readItems, readValue_skipBlanks]

theorem readFields_skipBlanks (fuel : Nat) (cs : List Char) :
  readFields fuel (skipBlanks cs) = readFields fuel cs
  := by
  cases fuel with
  | zero => rfl
  | succ fuel => rw [readFields, readFields, skipBlanks_skipBlanks]

theorem readValue_number {cs : List Char} {j : Json} (h : IsNumber cs j) (fuel : Nat)
    {rest : List Char} (hrest : Ends rest) :
  readValue (fuel + 1) (cs ++ rest) = some (j, rest)
  := by
  have hread := readNumber_number h hrest
  obtain ⟨c, ds, rfl, hc⟩ := h.exists_head
  have hskip := skipBlanks_of_solid (solid_of_number hc) (ds ++ rest)
  rw [List.cons_append] at hread ⊢
  rw [readValue, hskip]
  -- No other token starts with a digit or a minus sign.
  split
  case h_8 => apply hread
  all_goals
    rename_i heq
    obtain rfl := (List.cons.inj heq).1
    exact absurd hc (by decide)

theorem readValue_string {cs : List Char} {s : String} (h : IsString cs s) (fuel : Nat)
    (rest : List Char) :
  readValue (fuel + 1) (cs ++ rest) = some (.str s, rest)
  := by
  obtain ⟨ds, hcs, hread⟩ := readString_string h rest
  have hquote : Solid '"' := by unfold Solid; decide
  rw [hcs, readValue, skipBlanks_of_solid hquote]
  simp [hread]

/-! ### Phrases -/

/-- The reader reads the phrase at the start of the text, in front of what does not continue it:
a value in front of what continues no number, and what is inside an array or an object in
front of the mark that ends it.  Each item and field costs one unit of fuel. -/
def Reads (cs : List Char) : Phrase → Prop
  | .value j => ∀ fuel rest, cs.length ≤ fuel → Ends rest →
      readValue fuel (cs ++ rest) = some (j, rest)
  | .items js => ∀ fuel rest, cs.length < fuel →
      readItems fuel (cs ++ ']' :: rest) = some (js, rest)
  | .fields fs => ∀ fuel rest, cs.length < fuel →
      readFields fuel (cs ++ '\x7d' :: rest) = some (fs, rest)

/-- After a value and the blanks behind it the reader stands at a mark. -/
theorem readValue_of_reads (mark : Char) {as cs bs : List Char} {j : Json} (before : Blanks as)
    (item : Reads cs (.value j)) (after : Blanks bs)
    (hmark : mark.isDigit = false ∧ mark ≠ '.' ∧ mark ≠ 'e' ∧ mark ≠ 'E') (solid : Solid mark)
    {fuel : Nat} (hfuel : cs.length ≤ fuel) (rest : List Char) :
  ∃ ds, readValue fuel (as ++ (cs ++ (bs ++ mark :: rest))) = some (j, ds)
    ∧ skipBlanks ds = mark :: rest
  := by
  use bs ++ mark :: rest
  constructor
  · rw [readValue_of_blanks fuel before]
    apply item fuel _ hfuel
    apply ends_of_blanks after (ends_cons hmark rest)
  · rw [skipBlanks_of_blanks after, skipBlanks_of_solid solid]

theorem readItems_last {as cs bs : List Char} {j : Json} (before : Blanks as)
    (item : Reads cs (.value j)) (after : Blanks bs) :
  Reads (as ++ (cs ++ bs)) (.items [j])
  := by
  intro fuel rest hfuel
  obtain ⟨fuel, rfl⟩ := Nat.exists_eq_succ_of_ne_zero (Nat.ne_zero_of_lt hfuel)
  have hlength : cs.length ≤ fuel := by simp at hfuel; omega
  obtain ⟨ds, hread, hskip⟩ := readValue_of_reads ']' before item after (by decide)
    (by unfold Solid; decide) hlength rest
  simp only [List.append_assoc, readItems, hread, hskip]

theorem readItems_cons {as cs bs ds : List Char} {j : Json} {js : List Json} (before : Blanks as)
    (item : Reads cs (.value j)) (after : Blanks bs) (others : Reads ds (.items js)) :
  Reads (as ++ (cs ++ (bs ++ ',' :: ds))) (.items (j :: js))
  := by
  intro fuel rest hfuel
  obtain ⟨fuel, rfl⟩ := Nat.exists_eq_succ_of_ne_zero (Nat.ne_zero_of_lt hfuel)
  have hlength : cs.length ≤ fuel := by simp at hfuel; omega
  have hothers : ds.length < fuel := by simp at hfuel; omega
  obtain ⟨es, hread, hskip⟩ := readValue_of_reads ',' before item after (by decide)
    (by unfold Solid; decide) hlength (ds ++ ']' :: rest)
  simp only [List.append_assoc, List.cons_append, readItems, hread, hskip,
    others fuel rest hothers, Option.map_some]

/-- The name of a field and the colon after it are read before its value. -/
theorem readFields_name {as ns bs : List Char} {name : String} (before : Blanks as)
    (is_name : IsString ns name) (after_name : Blanks bs) (rest : List Char) :
  ∃ ds es, skipBlanks (as ++ (ns ++ (bs ++ ':' :: rest))) = '"' :: ds
    ∧ readString ds = some (name.toList, es) ∧ skipBlanks es = ':' :: rest
  := by
  obtain ⟨ds, hcs, hread⟩ := readString_string is_name (bs ++ ':' :: rest)
  have hquote : Solid '"' := by unfold Solid; decide
  have hcolon : Solid ':' := by unfold Solid; decide
  use ds, bs ++ ':' :: rest
  rw [skipBlanks_of_blanks before, hcs, skipBlanks_of_solid hquote, skipBlanks_of_blanks after_name,
    skipBlanks_of_solid hcolon]
  exact ⟨rfl, hread, rfl⟩

theorem readFields_last {as ns bs cs vs ds : List Char} {name : String} {j : Json}
    (before : Blanks as) (is_name : IsString ns name) (after_name : Blanks bs)
    (before_value : Blanks cs) (value : Reads vs (.value j)) (after : Blanks ds) :
  Reads (as ++ (ns ++ (bs ++ ':' :: (cs ++ (vs ++ ds))))) (.fields [(name, j)])
  := by
  intro fuel rest hfuel
  obtain ⟨fuel, rfl⟩ := Nat.exists_eq_succ_of_ne_zero (Nat.ne_zero_of_lt hfuel)
  have hlength : vs.length ≤ fuel := by simp at hfuel; omega
  obtain ⟨es, hread, hskip⟩ := readValue_of_reads '\x7d' before_value value after
    (by decide) (by unfold Solid; decide) hlength rest
  obtain ⟨gs, hs, hquote, hstring, hcolon⟩ := readFields_name before is_name after_name
    (cs ++ (vs ++ (ds ++ '\x7d' :: rest)))
  simp only [List.append_assoc, List.cons_append, readFields, hquote, hstring, hcolon, hread, hskip,
    String.ofList_toList]

theorem readFields_cons {as ns bs cs vs ds es : List Char} {name : String} {j : Json}
    {fs : List (String × Json)} (before : Blanks as) (is_name : IsString ns name)
    (after_name : Blanks bs) (before_value : Blanks cs) (value : Reads vs (.value j))
    (after : Blanks ds) (others : Reads es (.fields fs)) :
  Reads (as ++ (ns ++ (bs ++ ':' :: (cs ++ (vs ++ (ds ++ ',' :: es)))))) (.fields ((name, j) :: fs))
  := by
  intro fuel rest hfuel
  obtain ⟨fuel, rfl⟩ := Nat.exists_eq_succ_of_ne_zero (Nat.ne_zero_of_lt hfuel)
  have hlength : vs.length ≤ fuel := by simp at hfuel; omega
  have hothers : es.length < fuel := by simp at hfuel; omega
  obtain ⟨us, hread, hskip⟩ := readValue_of_reads ',' before_value value after
    (by decide) (by unfold Solid; decide) hlength (es ++ '\x7d' :: rest)
  obtain ⟨gs, hs, hquote, hstring, hcolon⟩ := readFields_name before is_name after_name
    (cs ++ (vs ++ (ds ++ ',' :: (es ++ '\x7d' :: rest))))
  simp only [List.append_assoc, List.cons_append, readFields, hquote, hstring, hcolon, hread, hskip,
    others fuel rest hothers, Option.map_some, String.ofList_toList]

theorem readValue_array {cs : List Char} {js : List Json} (inside : Reads cs (.items js))
    (head : ∀ rest ds, skipBlanks (cs ++ rest) ≠ ']' :: ds) :
  Reads ('[' :: (cs ++ [']'])) (.value (.arr js))
  := by
  intro fuel rest hfuel _
  obtain ⟨fuel, rfl⟩ := Nat.exists_eq_succ_of_ne_zero (Nat.ne_zero_of_lt (Nat.lt_of_lt_of_le
    (Nat.zero_lt_succ _) hfuel))
  have hinside : cs.length < fuel := by simp at hfuel; omega
  have hread := inside fuel rest hinside
  have hbracket : Solid '[' := by unfold Solid; decide
  simp only [List.cons_append, List.append_assoc, List.nil_append]
  rw [readValue, skipBlanks_of_solid hbracket]
  simp only
  split
  · rename_i heq
    apply absurd heq (head _ _)
  · rw [readItems_skipBlanks, hread]
    rfl

theorem readValue_object {cs : List Char} {fs : List (String × Json)}
    (inside : Reads cs (.fields fs)) (distinct : Entries.Distinct fs)
    (head : ∀ rest ds, skipBlanks (cs ++ rest) ≠ '\x7d' :: ds) :
  Reads ('\x7b' :: (cs ++ ['\x7d'])) (.value (.obj fs))
  := by
  intro fuel rest hfuel _
  obtain ⟨fuel, rfl⟩ := Nat.exists_eq_succ_of_ne_zero (Nat.ne_zero_of_lt (Nat.lt_of_lt_of_le
    (Nat.zero_lt_succ _) hfuel))
  have hinside : cs.length < fuel := by simp at hfuel; omega
  have hread := inside fuel rest hinside
  have hbrace : Solid '\x7b' := by unfold Solid; decide
  simp only [List.cons_append, List.append_assoc, List.nil_append]
  rw [readValue, skipBlanks_of_solid hbrace]
  simp only
  split
  · rename_i heq
    apply absurd heq (head _ _)
  · rw [readFields_skipBlanks, hread]
    simp [Entries.ofPairs_of_distinct distinct]

/-- The text inside an array starts with no closing bracket, whatever its blanks. -/
theorem skipBlanks_items {cs : List Char} {js : List Json} (h : Spells cs (.items js))
    (rest ds : List Char) :
  skipBlanks (cs ++ rest) ≠ ']' :: ds
  := by
  obtain ⟨as, c, es, before, solid, hc, rfl⟩ :
      ∃ as c es, Blanks as ∧ Solid c ∧ c ≠ ']' ∧ cs = as ++ c :: es := by
    cases h with
    | lastItem before item after | item before item after others =>
      obtain ⟨c, es, rfl, solid, hc⟩ := exists_head_of_spells item
      exact ⟨_, c, _, before, solid, hc, rfl⟩
  rw [List.append_assoc, skipBlanks_of_blanks before, List.cons_append, skipBlanks_of_solid solid]
  rintro ⟨⟩
  exact hc rfl

/-- The text inside an object starts with the quote of a name, whatever its blanks. -/
theorem skipBlanks_fields {cs : List Char} {fs : List (String × Json)} (h : Spells cs (.fields fs))
    (rest ds : List Char) :
  skipBlanks (cs ++ rest) ≠ '\x7d' :: ds
  := by
  obtain ⟨as, es, before, rfl⟩ : ∃ as es, Blanks as ∧ cs = as ++ '"' :: es := by
    cases h with
    | lastField before is_name | field before is_name =>
      obtain ⟨-⟩ := is_name
      exact ⟨_, _, before, rfl⟩
  have hquote : Solid '"' := by unfold Solid; decide
  rw [List.append_assoc, skipBlanks_of_blanks before, List.cons_append, skipBlanks_of_solid hquote]
  rintro ⟨⟩

/-- The reader reads whatever a text spells. -/
theorem reads_of_spells {cs : List Char} {p : Phrase} (h : Spells cs p) :
  Reads cs p
  := by
  induction h with
  | null | true | false =>
    intro fuel rest hfuel _
    obtain ⟨fuel, rfl⟩ := Nat.exists_eq_succ_of_ne_zero (Nat.ne_zero_of_lt hfuel)
    simp [readValue, skipBlanks]
  | number h =>
    intro fuel rest hfuel hrest
    obtain ⟨c, ds, rfl, -⟩ := h.exists_head
    obtain ⟨fuel, rfl⟩ := Nat.exists_eq_succ_of_ne_zero (Nat.ne_zero_of_lt hfuel)
    apply readValue_number h fuel hrest
  | string h =>
    intro fuel rest hfuel _
    obtain ⟨ds, hds, -⟩ := readString_string h []
    obtain ⟨fuel, rfl⟩ : ∃ n, fuel = n + 1 := by
      cases fuel with
      | zero => simp_all
      | succ n => use n
    apply readValue_string h
  | emptyArray inside | emptyObject inside =>
    intro fuel rest hfuel _
    obtain ⟨fuel, rfl⟩ := Nat.exists_eq_succ_of_ne_zero (Nat.ne_zero_of_lt hfuel)
    simp [readValue, skipBlanks, skipBlanks_of_blanks inside]
  | array inside ih => apply readValue_array ih (skipBlanks_items inside)
  | object inside distinct ih => apply readValue_object ih distinct (skipBlanks_fields inside)
  | lastItem before _ after ih => apply readItems_last before ih after
  | item before _ after _ ih others => apply readItems_cons before ih after others
  | lastField before is_name after_name before_value _ after ih =>
    apply readFields_last before is_name after_name before_value ih after
  | field before is_name after_name before_value _ after _ ih others =>
    apply readFields_cons before is_name after_name before_value ih after others

/-- The reader accepts every text of the grammar and returns what it denotes. -/
theorem parse_of_isText {cs : List Char} {j : Json} (h : IsText cs j) :
  parse cs = some j
  := by
  obtain @⟨as, cs, bs, j, before, value, after⟩ := h
  have hends : Ends bs := by
    rw [← List.append_nil bs]
    apply ends_of_blanks after ends_nil
  have hlength : cs.length ≤ (as ++ (cs ++ bs)).length + 1 := by simp; omega
  rw [parse, readValue_of_blanks _ before, reads_of_spells value _ bs hlength hends]
  simp [skipBlanks_eq_nil after]

/-- A text denotes one thing at most. -/
theorem IsText.unique {cs : List Char} {i j : Json} (hi : IsText cs i) (hj : IsText cs j) :
  i = j
  := by
  have h := parse_of_isText hi
  rw [parse_of_isText hj] at h
  exact (Option.some.inj h).symm

end Json

end SearchDsl
