/-
# `Matinee.Proofs.Json.Numeral` — a number is read as the parts it is written from

`Parts.text` puts the parts of a number together, and the scanner takes them apart
again: from each phase the digits lead on to the next, so the numeral it holds at
the end has the same parts.  A number does not show its own end: its token comes
only with the character behind it, hence such a character in `feed_numeral`.
-/
import Matinee.Proofs.Json.Scan
import Matinee.Proofs.Number.Digits

namespace Matinee.Json

open Document.State (feed_cons feed_append step_silent)

/-! ## Texts of numbers -/

namespace Number

/-- The text that a number is put together to. -/
def Parts.text (p : Parts) : List Char :=
  (if p.negative then ['-'] else []) ++ p.whole ++
    (match p.fraction with
      | none => []
      | some ds => '.' :: ds) ++
    (match p.exponent with
      | none => []
      | some (negative, ds) => 'e' :: (if negative then '-' else '+') :: ds)

/-- One digit or more. -/
def IsDigits (s : List Char) : Prop := s ≠ [] ∧ ∀ c ∈ s, Scan.isDigit c = true

/-- Parts that have digits where a number needs them, and no zero in front of another
digit. -/
structure Parts.WellFormed (p : Parts) : Prop where
  whole : IsDigits p.whole
  head : p.whole.head? = some '0' → p.whole = ['0']
  fraction : ∀ ds ∈ p.fraction, IsDigits ds
  exponent : ∀ e ∈ p.exponent, IsDigits e.2

end Number

/-! ## The scanner -/

theorem ne_of_isDigit {c x : Char} (hc : Scan.isDigit c = true) (hx : Scan.isDigit x = false) :
    c ≠ x := by
  rintro rfl
  rw [hc] at hx
  cases hx

theorem exists_extend_start {c : Char} (hc : Scan.isDigit c = true) :
    ∃ n, Scan.Numeral.start.extend c = some n := by
  by_cases h0 : c = '0'
  · exact ⟨_, by rw [h0]; rfl⟩
  · exact ⟨_, by simp [Scan.Numeral.extend, Scan.Numeral.start, h0, hc]; rfl⟩

theorem step_between_digit {c : Char} (hc : Scan.isDigit c = true) :
    Scan.step .between (some c) = Scan.step (.numeral .start) (some c) := by
  obtain ⟨n, hn⟩ := exists_extend_start hc
  have hne {x : Char} (hx : Scan.isDigit x = false) : c ≠ x := ne_of_isDigit hc hx
  simp [Scan.step, Scan.start, Scan.isSpace, hn, hne (x := ' ') (by decide),
    hne (x := '\t') (by decide), hne (x := '\n') (by decide), hne (x := '\r') (by decide),
    hne (x := '[') (by decide), hne (x := ']') (by decide), hne (x := '\x7b') (by decide),
    hne (x := '\x7d') (by decide), hne (x := ',') (by decide), hne (x := ':') (by decide),
    hne (x := '"') (by decide), hne (x := 't') (by decide), hne (x := 'f') (by decide),
    hne (x := 'n') (by decide), hne (x := '-') (by decide)]

theorem step_extend {n n' : Scan.Numeral} {c : Char} (h : n.extend c = some n') :
    Scan.step (.numeral n) (some c) = (.numeral n', []) := by
  simp [Scan.step, h]

theorem feed_digits {put : List Char → Scan.Numeral}
    (hput : ∀ s c, Scan.isDigit c = true → (put s).extend c = some (put (c :: s)))
    {ds : List Char} (hds : ∀ c ∈ ds, Scan.isDigit c = true) (s : List Char) (b : Builder) :
    Document.State.feed ⟨.numeral (put s), b⟩ ds = ⟨.numeral (put (ds.reverse ++ s)), b⟩ := by
  induction ds generalizing s with
  | nil => rfl
  | cons c ds ih =>
      obtain ⟨hc, hds⟩ := List.forall_mem_cons.mp hds
      rw [feed_cons, step_silent (step_extend (hput s c hc)), ih hds, List.reverse_cons,
        List.append_assoc, List.singleton_append]

/-- The phase behind the whole digits: a single zero keeps one of its own. -/
def wholePhase (ds : List Char) : Scan.Phase := if ds = ['0'] then .zero else .whole

theorem feed_whole {p : Number.Parts} (h : p.WellFormed) (b : Builder) :
    Document.State.feed ⟨.between, b⟩ ((if p.negative then ['-'] else []) ++ p.whole) =
      ⟨.numeral { Scan.Numeral.start with
        phase := wholePhase p.whole, negative := p.negative, whole := p.whole.reverse }, b⟩ := by
  obtain ⟨negative, whole, fraction, exponent⟩ := p
  obtain ⟨⟨hne, hdigits⟩, hhead, -, -⟩ := h
  dsimp only at hne hdigits hhead ⊢
  obtain ⟨c, ds, rfl⟩ := List.exists_cons_of_ne_nil hne
  obtain ⟨hc, hds⟩ := List.forall_mem_cons.mp hdigits
  have hnumeral : Document.State.feed ⟨.numeral { Scan.Numeral.start with negative }, b⟩ (c :: ds) =
      ⟨.numeral { Scan.Numeral.start with
        phase := wholePhase (c :: ds), negative := negative, whole := (c :: ds).reverse }, b⟩ := by
    by_cases h0 : c = '0'
    · obtain ⟨-, rfl⟩ := List.cons.inj (hhead (congrArg some h0))
      rw [h0]
      rfl
    · have hphase : wholePhase (c :: ds) = .whole := if_neg fun h => h0 (List.cons.inj h).1
      have hextend : Scan.Numeral.extend { Scan.Numeral.start with negative } c =
          some { Scan.Numeral.start with phase := .whole, negative, whole := [c] } := by
        simp [Scan.Numeral.extend, Scan.Numeral.start, h0, hc]
      have hput (s : List Char) (c : Char) (hc : Scan.isDigit c = true) :
          Scan.Numeral.extend { Scan.Numeral.start with phase := .whole, negative, whole := s } c =
            some { Scan.Numeral.start with phase := .whole, negative, whole := c :: s } := by
        simp [Scan.Numeral.extend, hc]
      rw [feed_cons, step_silent (step_extend hextend), feed_digits hput hds, hphase,
        List.reverse_cons]
  cases negative with
  | true =>
      have hminus : Scan.step .between (some '-') =
          (.numeral { Scan.Numeral.start with negative := true }, []) := rfl
      rw [if_pos rfl, List.singleton_append, feed_cons, step_silent hminus, hnumeral]
  | false =>
      rw [if_neg nofun, List.nil_append, ← hnumeral, feed_cons, feed_cons]
      simp only [Document.State.step, step_between_digit hc]
      rfl

theorem feed_fraction {n : Scan.Numeral} (hn : n.phase = .zero ∨ n.phase = .whole)
    (hempty : n.fraction = []) {ds : List Char} (hds : Number.IsDigits ds) (b : Builder) :
    Document.State.feed ⟨.numeral n, b⟩ ('.' :: ds) =
      ⟨.numeral { n with phase := .fraction, fraction := ds.reverse }, b⟩ := by
  obtain ⟨hne, hdigits⟩ := hds
  obtain ⟨c, ds, rfl⟩ := List.exists_cons_of_ne_nil hne
  obtain ⟨hc, hds⟩ := List.forall_mem_cons.mp hdigits
  have hpoint : n.extend '.' = some { n with phase := .point } := by
    rcases hn with hn | hn <;> simp [Scan.Numeral.extend, hn]
    decide
  have hextend : Scan.Numeral.extend { n with phase := .point } c =
      some { n with phase := .fraction, fraction := [c] } := by
    simp [Scan.Numeral.extend, hc, hempty]
  have hput (s : List Char) (c : Char) (hc : Scan.isDigit c = true) :
      Scan.Numeral.extend { n with phase := .fraction, fraction := s } c =
        some { n with phase := .fraction, fraction := c :: s } := by
    simp [Scan.Numeral.extend, hc]
  rw [feed_cons, step_silent (step_extend hpoint), feed_cons, step_silent (step_extend hextend),
    feed_digits hput hds, List.reverse_cons]

theorem feed_exponent {n : Scan.Numeral} (hn : n.phase = .zero ∨ n.phase = .whole ∨ n.phase = .fraction)
    (hpositive : n.exponentNegative = false) (hempty : n.exponent = []) {negative : Bool}
    {ds : List Char} (hds : Number.IsDigits ds) (b : Builder) :
    Document.State.feed ⟨.numeral n, b⟩ ('e' :: (if negative then '-' else '+') :: ds) =
      ⟨.numeral { n with
        phase := .exponent, exponentNegative := negative, exponent := ds.reverse }, b⟩ := by
  obtain ⟨hne, hdigits⟩ := hds
  obtain ⟨c, ds, rfl⟩ := List.exists_cons_of_ne_nil hne
  obtain ⟨hc, hds⟩ := List.forall_mem_cons.mp hdigits
  have hmark : n.extend 'e' = some { n with phase := .mark } := by
    have hletter : Scan.isDigit 'e' = false := by decide
    rcases hn with hn | hn | hn <;> simp [Scan.Numeral.extend, hn, hletter]
  have hsign : Scan.Numeral.extend { n with phase := .mark } (if negative then '-' else '+') =
      some { n with phase := .markSign, exponentNegative := negative } := by
    cases negative <;> simp [Scan.Numeral.extend, hpositive]
  have hextend : Scan.Numeral.extend { n with phase := .markSign, exponentNegative := negative } c =
      some { n with phase := .exponent, exponentNegative := negative, exponent := [c] } := by
    simp [Scan.Numeral.extend, hc, hempty]
  have hput (s : List Char) (c : Char) (hc : Scan.isDigit c = true) :
      Scan.Numeral.extend
          { n with phase := .exponent, exponentNegative := negative, exponent := s } c =
        some { n with phase := .exponent, exponentNegative := negative, exponent := c :: s } := by
    simp [Scan.Numeral.extend, hc]
  rw [feed_cons, step_silent (step_extend hmark), feed_cons, step_silent (step_extend hsign),
    feed_cons, step_silent (step_extend hextend), feed_digits hput hds, List.reverse_cons]

theorem wholePhase_cases (ds : List Char) : wholePhase ds = .zero ∨ wholePhase ds = .whole := by
  unfold wholePhase
  split
  · exact Or.inl rfl
  · exact Or.inr rfl

/-- The numeral that holds the parts. -/
def Scan.Numeral.ofParts (p : Number.Parts) : Scan.Numeral where
  phase := if p.exponent.isSome then .exponent else if p.fraction.isSome then .fraction
    else wholePhase p.whole
  negative := p.negative
  whole := p.whole.reverse
  fraction := (p.fraction.getD []).reverse
  exponentNegative := (p.exponent.map Prod.fst).getD false
  exponent := ((p.exponent.map Prod.snd).getD []).reverse

theorem complete_ofParts (p : Number.Parts) : (Scan.Numeral.ofParts p).complete = true := by
  unfold Scan.Numeral.complete Scan.Numeral.ofParts
  cases p.exponent with
  | some e => rfl
  | none =>
      cases p.fraction with
      | some ds => rfl
      | none => rcases wholePhase_cases p.whole with hphase | hphase <;> simp [hphase]

theorem parts_ofParts {p : Number.Parts} (h : p.WellFormed) :
    (Scan.Numeral.ofParts p).parts = p := by
  obtain ⟨negative, whole, fraction, exponent⟩ := p
  obtain ⟨-, -, hfraction, hexponent⟩ := h
  have hempty {ds : List Char} (hds : Number.IsDigits ds) : ds.isEmpty = false :=
    List.isEmpty_eq_false_iff.mpr hds.1
  have hfraction' : (if (fraction.getD []).isEmpty then none else some (fraction.getD [])) =
      fraction := by
    cases fraction with
    | none => rfl
    | some ds => exact if_neg (Bool.eq_false_iff.mp (hempty (hfraction ds rfl)))
  have hexponent' : (if ((exponent.map Prod.snd).getD []).isEmpty then none
      else some ((exponent.map Prod.fst).getD false, (exponent.map Prod.snd).getD [])) =
        exponent := by
    cases exponent with
    | none => rfl
    | some e => exact if_neg (Bool.eq_false_iff.mp (hempty (hexponent e rfl)))
  simp only [Scan.Numeral.parts, Scan.Numeral.ofParts, List.isEmpty_reverse, List.reverse_reverse,
    hfraction', hexponent']

theorem feed_text {p : Number.Parts} (h : p.WellFormed) (b : Builder) :
    Document.State.feed ⟨.between, b⟩ p.text = ⟨.numeral (.ofParts p), b⟩ := by
  rw [Number.Parts.text, feed_append, feed_append, feed_whole h]
  have hphase := wholePhase_cases p.whole
  obtain ⟨negative, whole, fraction, exponent⟩ := p
  have hfraction := h.fraction
  have hexponent := h.exponent
  dsimp only at hphase hfraction hexponent ⊢
  cases fraction with
  | none =>
      cases exponent with
      | none => rfl
      | some e =>
          rw [Document.State.feed_nil, feed_exponent (hphase.imp_right Or.inl) rfl rfl
            (hexponent e rfl)]
          rfl
  | some ds =>
      rw [feed_fraction hphase rfl (hfraction ds rfl)]
      cases exponent with
      | none => rfl
      | some e =>
          rw [feed_exponent (Or.inr (Or.inr rfl)) rfl rfl (hexponent e rfl)]
          rfl

/-! ## Numerals -/

/-- The text is read as one number of the value `v`, which ends with the character
behind it. -/
def IsNumeral (s : List Char) (v : Number) : Prop :=
  ∃ n : Scan.Numeral, n.complete = true ∧ n.parts.value? = some v ∧
    ∀ b : Builder, Document.State.feed ⟨.between, b⟩ s = ⟨.numeral n, b⟩

theorem isNumeral_text {p : Number.Parts} (h : p.WellFormed) {v : Number}
    (hv : p.value? = some v) : IsNumeral p.text v :=
  ⟨.ofParts p, complete_ofParts p, by rw [parts_ofParts h, hv], feed_text h⟩

/-- The characters that may stand behind a value inside a container. -/
def Closes (c : Char) : Prop := c = ',' ∨ c = ']' ∨ c = '\x7d'

theorem extend_closes {c : Char} (hc : Closes c) (n : Scan.Numeral) :
    n.extend c = none ∧ n.refuses c = false := by
  have hdigit : Scan.isDigit c = false := by
    rcases hc with rfl | rfl | rfl <;> decide
  have hrefuses : n.refuses c = false := by simp [Scan.Numeral.refuses, hdigit]
  refine ⟨?_, hrefuses⟩
  rcases hc with rfl | rfl | rfl <;> cases hphase : n.phase <;>
    simp [Scan.Numeral.extend, hphase, hdigit]

/-- Behind a number its token has come, and the character behind it is read as if
nothing had been there. -/
theorem feed_numeral {s : List Char} {v : Number} (h : IsNumeral s v) {c : Char} (hc : Closes c)
    (rest : List Char) (b : Builder) :
    Document.State.feed ⟨.between, b⟩ (s ++ c :: rest) =
      Document.State.feed ⟨.between, b.add (.scalar (.number (some v)))⟩ (c :: rest) := by
  obtain ⟨n, hcomplete, hvalue, hfeed⟩ := h
  obtain ⟨hextend, hrefuses⟩ := extend_closes hc n
  have htoken : n.token = .scalar (.number (some v)) := by
    simp [Scan.Numeral.token, hcomplete, hvalue]
  have hstep : Scan.step (.numeral n) (some c) =
      ((Scan.start c).1, .scalar (.number (some v)) :: (Scan.start c).2) := by
    simp [Scan.step, hextend, hcomplete, hrefuses, htoken]
  rw [feed_append, hfeed, feed_cons, feed_cons]
  simp only [Document.State.step, hstep, List.foldl_cons]
  rfl

theorem IsNumeral.ofText {s : List Char} {v : Number} (h : IsNumeral s v) :
    Document.ofText (String.ofList s) = ⟨.scalar (.number (some v)), false⟩ := by
  obtain ⟨n, hcomplete, hvalue, hfeed⟩ := h
  have hdoc : Document.ofText (String.ofList s) =
      (Document.State.feed ⟨.between, .empty⟩ s).finish := by
    simp [Document.ofText, Document.ofSymbols, Document.State.feed, Document.State.start]
  rw [hdoc, hfeed]
  simp [Document.State.finish, Scan.finish, Scan.Numeral.token, hcomplete, hvalue, Builder.add,
    Builder.empty, Builder.put]

/-! ## Whole numbers -/

theorem absorb_of_fits {n : Nat} {s : List Char}
    (h : n * 10 ^ s.length + Matinee.Number.ofDigits s < 2 ^ 64) :
    Number.absorb n s = (n * 10 ^ s.length + Matinee.Number.ofDigits s, []) := by
  rw [← Matinee.Number.foldl_digits] at h ⊢
  induction s generalizing n with
  | nil => rfl
  | cons c s ih =>
      have hfirst : Number.fits (n * 10 + (Matinee.Number.digitValue? c).getD 0) = true := by
        rw [List.foldl_cons, Matinee.Number.foldl_digits] at h
        have hle := Nat.le_mul_of_pos_right (n * 10 + (Matinee.Number.digitValue? c).getD 0)
          (Nat.pow_pos (n := s.length) (by decide : 0 < 10))
        exact decide_eq_true (by omega)
      rw [Number.absorb]
      simp only [hfirst, if_true]
      exact ih h

theorem isDigits_digits (n : Nat) : Number.IsDigits (Matinee.Number.digits n) :=
  ⟨Matinee.Number.digits_ne_nil n, fun _ hc => Matinee.Number.isDigit_of_mem_digits hc⟩

theorem digits_of_head {n : Nat} (h : (Matinee.Number.digits n).head? = some '0') :
    Matinee.Number.digits n = ['0'] := by
  rcases Nat.eq_zero_or_pos n with rfl | hn
  · rfl
  · exact absurd h (Matinee.Number.head?_digits hn)

/-- A whole number is read as itself, if 64 bits hold it. -/
theorem isNumeral_wholeText {n : Int} (hlow : -(2 ^ 63 : Nat) ≤ n) (hhigh : n < (2 ^ 64 : Nat)) :
    IsNumeral (wholeText n) (.whole n) := by
  have hparts : Number.Parts.WellFormed
      ⟨decide (n < 0), Matinee.Number.digits n.natAbs, none, none⟩ :=
    ⟨isDigits_digits _, digits_of_head, nofun, nofun⟩
  have htext : wholeText n = Number.Parts.text
      ⟨decide (n < 0), Matinee.Number.digits n.natAbs, none, none⟩ := by
    by_cases hneg : n < 0 <;> simp [wholeText, Number.Parts.text, hneg]
  have habsorb : Number.absorb 0 (Matinee.Number.digits n.natAbs) = (n.natAbs, []) := by
    have hvalue := Matinee.Number.ofDigits_digits n.natAbs
    rw [absorb_of_fits (by omega), Nat.zero_mul, Nat.zero_add, hvalue]
  rw [htext]
  refine isNumeral_text hparts ?_
  by_cases hneg : n < 0
  · have hrange : 1 ≤ n.natAbs ∧ n.natAbs ≤ 2 ^ 63 := by omega
    have hval : n = -(n.natAbs : Int) := by omega
    rw [decide_eq_true hneg]
    simp only [Number.Parts.value?, habsorb, if_true, if_pos hrange]
    rw [← hval]
    rfl
  · have hval : n = (n.natAbs : Int) := by omega
    rw [decide_eq_false hneg]
    simp only [Number.Parts.value?, habsorb]
    rw [← hval]
    rfl

end Matinee.Json
