/-
# `Matinee.Proofs.Text.LowerCase` — lower-casing a text and a part of it

A character is lower-cased by itself, but for the capital sigma, whose form depends on
what stands around it.  So a text is lower-cased piece by piece if each piece knows its
surroundings (`lowerBetween_append`), and a piece has the form that it has by itself just
if its surroundings change no sigma (`SigmasStay`, `lowerBetween_eq_lower_iff`).

Blanks are neither cased nor passed over by the sigma rule.  What is trimmed off a text
therefore changes no sigma in the rest.
-/
import Matinee.Proofs.Text.Blank
import Matinee.Text.LowerCase

namespace Matinee.Text.LowerCase

/-! ## Piece by piece -/

/-- The lower-case form of a character between others; those before it are reversed. -/
def lowerAt (before : List Char) (c : Char) (after : List Char) : List Char :=
  if c = 'Σ' then if isFinalSigma before after then ['ς'] else ['σ'] else lowerChar c

/-- The lower-case form of a text between others. -/
def lowerBetween (before after : List Char) : List Char → List Char
  | [] => []
  | c :: rest => lowerAt before c (rest ++ after) ++ lowerBetween (c :: before) after rest

theorem lowerFrom_eq (before out s : List Char) :
    lowerFrom before out s = out.reverse ++ lowerBetween before [] s := by
  induction s generalizing before out with
  | nil => rw [lowerFrom, lowerBetween, List.append_nil]
  | cons c rest ih =>
      rw [lowerFrom, lowerBetween, ih, List.append_nil, List.reverse_append, List.reverse_reverse,
        List.append_assoc]
      rfl

theorem lower_eq (s : List Char) : lower s = lowerBetween [] [] s := lowerFrom_eq [] [] s

theorem lowerBetween_append (before after s t : List Char) :
    lowerBetween before after (s ++ t) =
      lowerBetween before (t ++ after) s ++ lowerBetween (s.reverse ++ before) after t := by
  induction s generalizing before with
  | nil => rfl
  | cons c rest ih =>
      rw [List.cons_append, lowerBetween, lowerBetween, ih, List.append_assoc, List.append_assoc,
        List.reverse_cons, List.append_assoc]
      rfl

/-! ## Sigmas -/

/-- Between other characters each capital sigma ends a word just if it does by itself. -/
def SigmasStay (front text back : List Char) : Prop :=
  ∀ i < text.length, text[i]? = some 'Σ' →
    isFinalSigma ((text.take i).reverse ++ front.reverse) (text.drop (i + 1) ++ back) =
      isFinalSigma (text.take i).reverse (text.drop (i + 1))

instance (front text back : List Char) : Decidable (SigmasStay front text back) :=
  inferInstanceAs (Decidable (∀ i < text.length, _ → _))

theorem lowerAt_length (before before' after after' : List Char) (c : Char) :
    (lowerAt before c after).length = (lowerAt before' c after').length := by
  unfold lowerAt
  split
  · split <;> split <;> rfl
  · rfl

theorem lowerAt_eq_iff {before before' after after' : List Char} {c : Char} :
    lowerAt before c after = lowerAt before' c after' ↔
      (c = 'Σ' → isFinalSigma before after = isFinalSigma before' after') := by
  unfold lowerAt
  split
  · rename_i hc
    cases isFinalSigma before after <;> cases isFinalSigma before' after' <;> simp [hc]
  · rename_i hc
    exact iff_of_true rfl fun h => absurd h hc

/-- Only sigmas see what stands around the text. -/
theorem lowerBetween_eq_iff {before before' after after' s : List Char} :
    lowerBetween before after s = lowerBetween before' after' s ↔
      ∀ i < s.length, s[i]? = some 'Σ' →
        isFinalSigma ((s.take i).reverse ++ before) (s.drop (i + 1) ++ after) =
          isFinalSigma ((s.take i).reverse ++ before') (s.drop (i + 1) ++ after') := by
  induction s generalizing before before' with
  | nil => exact iff_of_true rfl fun i hi => absurd hi (Nat.not_lt_zero i)
  | cons c rest ih =>
      have hparts : lowerBetween before after (c :: rest) = lowerBetween before' after' (c :: rest) ↔
          lowerAt before c (rest ++ after) = lowerAt before' c (rest ++ after') ∧
            lowerBetween (c :: before) after rest = lowerBetween (c :: before') after' rest := by
        constructor
        · exact fun h => List.append_inj h (lowerAt_length _ _ _ _ c)
        · rintro ⟨hhead, hrest⟩
          rw [lowerBetween, lowerBetween, hhead, hrest]
      rw [hparts, lowerAt_eq_iff, ih]
      constructor
      · rintro ⟨hhead, hrest⟩ i hi hsigma
        cases i with
        | zero => exact hhead (Option.some.inj hsigma)
        | succ i =>
            have hplace := hrest i (Nat.lt_of_succ_lt_succ hi) hsigma
            simpa using hplace
      · intro h
        refine ⟨fun hc => h 0 (Nat.zero_lt_succ _) (congrArg some hc), ?_⟩
        intro i hi hsigma
        have hplace := h (i + 1) (Nat.succ_lt_succ hi) hsigma
        simpa using hplace

/-- A part of a text has the lower-case form that it has by itself just if its sigmas
stay. -/
theorem lowerBetween_eq_lower_iff {front text back : List Char} :
    lowerBetween front.reverse back text = lower text ↔ SigmasStay front text back := by
  rw [lower_eq, lowerBetween_eq_iff]
  simp only [List.append_nil]
  rfl

theorem lower_infix {front text back : List Char} (h : SigmasStay front text back) :
    lower text <:+: lower (front ++ text ++ back) := by
  refine ⟨lowerBetween [] (text ++ back) front, lowerBetween (text.reverse ++ front.reverse) [] back, ?_⟩
  rw [← lowerBetween_eq_lower_iff.mpr h, lower_eq, List.append_assoc front, lowerBetween_append,
    lowerBetween_append]
  simp only [List.append_nil, List.append_assoc]

theorem sigmasStay_of_notMem {text : List Char} (h : 'Σ' ∉ text) (front back : List Char) :
    SigmasStay front text back := by
  intro i _ hsigma
  exact absurd (List.mem_of_getElem? hsigma) h

/-! ## Blanks -/

/-- The code points of the blanks. -/
def blankCodes : List Nat :=
  [0x09, 0x0A, 0x0B, 0x0C, 0x0D, 0x20, 0x85, 0xA0, 0x1680, 0x2000, 0x2001, 0x2002, 0x2003, 0x2004,
    0x2005, 0x2006, 0x2007, 0x2008, 0x2009, 0x200A, 0x2028, 0x2029, 0x202F, 0x205F, 0x3000]

theorem mem_blankCodes_of_isBlank {c : Char} (h : isBlank c = true) : c.toNat ∈ blankCodes := by
  simp only [isBlank, Bool.or_eq_true, Bool.and_eq_true, decide_eq_true_eq, beq_iff_eq] at h
  simp only [blankCodes, List.mem_cons, List.not_mem_nil, or_false]
  omega

/-- Blanks are not cased, and the sigma rule does not look past them. -/
theorem uncased_of_isBlank {c : Char} (h : isBlank c = true) :
    isCased c = false ∧ isIgnorable c = false := by
  have htables : ∀ n ∈ blankCodes,
      isCased (Char.ofNat n) = false ∧ isIgnorable (Char.ofNat n) = false := by decide +kernel
  have hc := htables c.toNat (mem_blankCodes_of_isBlank h)
  rwa [Char.ofNat_toNat] at hc

theorem meetsCased_append_blanks (s : List Char) {blanks : List Char}
    (h : ∀ c ∈ blanks, isBlank c = true) : meetsCased (s ++ blanks) = meetsCased s := by
  induction s with
  | nil =>
      cases blanks with
      | nil => rfl
      | cons c rest =>
          obtain ⟨hcased, hignorable⟩ := uncased_of_isBlank (h c List.mem_cons_self)
          rw [List.nil_append, meetsCased, List.dropWhile_cons_of_neg (by simp [hignorable])]
          exact hcased
  | cons c rest ih =>
      unfold meetsCased at ih ⊢
      by_cases hc : isIgnorable c = true
      · rw [List.cons_append, List.dropWhile_cons_of_pos hc, List.dropWhile_cons_of_pos hc]
        exact ih
      · rw [List.cons_append, List.dropWhile_cons_of_neg hc, List.dropWhile_cons_of_neg hc]

theorem isFinalSigma_append_blanks (before after : List Char) {blanks blanks' : List Char}
    (h : ∀ c ∈ blanks, isBlank c = true) (h' : ∀ c ∈ blanks', isBlank c = true) :
    isFinalSigma (before ++ blanks) (after ++ blanks') = isFinalSigma before after := by
  rw [isFinalSigma, meetsCased_append_blanks before h, meetsCased_append_blanks after h', isFinalSigma]

theorem SigmasStay.trim {front text back : List Char} (h : SigmasStay front text back) :
    SigmasStay (trimStart front) text (trimEnd back) := by
  obtain ⟨blanks, hblanks, hfront⟩ := exists_blanks_trimStart front
  obtain ⟨blanks', hblanks', hback⟩ := exists_trimEnd_blanks back
  have hreversed : front.reverse = (trimStart front).reverse ++ blanks.reverse := by
    rw [← List.reverse_append, ← hfront]
  intro i hi hsigma
  have hstay := h i hi hsigma
  rw [hreversed, hback, ← List.append_assoc, ← List.append_assoc, isFinalSigma_append_blanks _ _
    (fun c hc => hblanks c (List.mem_reverse.mp hc)) hblanks'] at hstay
  exact hstay

end Matinee.Text.LowerCase
