/-
# `Matinee.Proofs.Text.Pieces` — the pieces of a text and what stands around them

Cutting a text at its separators gives the longest runs without one, the empty runs
between two separators or a separator and an end of the text included
(`mem_splitAt_iff`).  The induction is on the first separator: in front of it is the
first piece, and behind it the text is cut by itself.

A character at the end of a text that is no separator only makes the last piece longer
(`exists_splitAt_concat`).
-/
import Matinee.Text.Pieces

namespace Matinee.Text

variable {sep : Char → Bool}

theorem splitAt_of_forall_not {s : List Char} (h : ∀ c ∈ s, sep c = false) :
    splitAt sep s = [s] := by
  induction s with
  | nil => rfl
  | cons c s ih =>
      exact splitAt_cons_other (h c List.mem_cons_self)
        (ih fun d hd => h d (List.mem_cons_of_mem _ hd))

/-- A longest run without separators: at either side of it there is a separator, or the
text has an end. -/
structure IsRun (sep : Char → Bool) (s run : List Char) : Prop where
  free : ∀ c ∈ run, sep c = false
  bounded : ∃ front back, s = front ++ run ++ back ∧
    (∀ c, front.getLast? = some c → sep c = true) ∧ ∀ c, back.head? = some c → sep c = true

/-- A text without separators is one run, and any other begins with a run that ends at
the first of them. -/
theorem exists_first_sep (sep : Char → Bool) (s : List Char) :
    (∀ c ∈ s, sep c = false) ∨
      ∃ first c rest, s = first ++ c :: rest ∧ (∀ d ∈ first, sep d = false) ∧ sep c = true := by
  induction s with
  | nil => exact .inl nofun
  | cons d s ih =>
      cases hd : sep d with
      | true => exact .inr ⟨[], d, s, rfl, nofun, hd⟩
      | false =>
          rcases ih with hfree | ⟨first, c, rest, rfl, hfirst, hc⟩
          · exact .inl (List.forall_mem_cons.mpr ⟨hd, hfree⟩)
          · exact .inr ⟨d :: first, c, rest, rfl, List.forall_mem_cons.mpr ⟨hd, hfirst⟩, hc⟩

@[elab_as_elim]
theorem induction_on_first_sep {motive : List Char → Prop} (sep : Char → Bool) (s : List Char)
    (free : ∀ s, (∀ c ∈ s, sep c = false) → motive s)
    (cut : ∀ first c rest, (∀ d ∈ first, sep d = false) → sep c = true → motive rest →
      motive (first ++ c :: rest)) : motive s := by
  rcases exists_first_sep sep s with hfree | ⟨first, c, rest, hs, hfirst, hc⟩
  · exact free s hfree
  · have hlt : rest.length < s.length := by
      rw [hs, List.length_append, List.length_cons]
      omega
    rw [hs]
    exact cut first c rest hfirst hc (induction_on_first_sep sep rest free cut)
termination_by s.length

theorem isRun_of_mem_splitAt {s piece : List Char} (h : piece ∈ splitAt sep s) :
    IsRun sep s piece := by
  refine ⟨sep_eq_false_of_mem_splitAt h, ?_⟩
  induction s using induction_on_first_sep sep with
  | free s hfree =>
      rw [splitAt_of_forall_not hfree, List.mem_singleton] at h
      subst h
      exact ⟨[], [], (List.append_nil _).symm, nofun, nofun⟩
  | cut first c rest hfirst hc ih =>
      rw [splitAt_append_sep hc, splitAt_of_forall_not hfirst] at h
      rcases List.mem_cons.mp h with rfl | h
      · refine ⟨[], c :: rest, rfl, nofun, ?_⟩
        intro d hd
        exact Option.some.inj hd ▸ hc
      · obtain ⟨front, back, hrest, hfront, hback⟩ := ih h
        refine ⟨first ++ c :: front, back, by simp [hrest], ?_, hback⟩
        intro d hd
        rw [List.getLast?_append] at hd
        cases front with
        | nil => exact Option.some.inj hd ▸ hc
        | cons e front =>
            rw [List.getLast?_cons_cons, List.getLast?_cons, Option.some_or] at hd
            exact hfront d (List.getLast?_cons.trans hd)

theorem IsRun.mem_splitAt {s run : List Char} (h : IsRun sep s run) : run ∈ splitAt sep s := by
  obtain ⟨hfree, front, back, rfl, hfront, hback⟩ := h
  have hbehind : run ∈ splitAt sep (run ++ back) := by
    cases back with
    | nil => rw [List.append_nil, splitAt_of_forall_not hfree]; exact List.mem_singleton_self run
    | cons c back =>
        rw [splitAt_append_sep (hback c rfl), splitAt_of_forall_not hfree]
        exact List.mem_cons_self
  rcases List.eq_nil_or_concat front with rfl | ⟨front, c, rfl⟩
  · exact hbehind
  · have hc : sep c = true := hfront c (by simp)
    rw [List.concat_eq_append, List.append_assoc, List.append_assoc, List.singleton_append,
      splitAt_append_sep hc]
    exact List.mem_append_right _ hbehind

/-- The pieces of a text are its longest runs without separators. -/
theorem mem_splitAt_iff {s piece : List Char} : piece ∈ splitAt sep s ↔ IsRun sep s piece :=
  ⟨isRun_of_mem_splitAt, IsRun.mem_splitAt⟩

theorem exists_splitAt_concat {c : Char} (hc : sep c = false) (s : List Char) :
    ∃ front last, splitAt sep s = front ++ [last] ∧
      splitAt sep (s ++ [c]) = front ++ [last ++ [c]] := by
  induction s with
  | nil => exact ⟨[], [], rfl, splitAt_cons_other hc rfl⟩
  | cons d s ih =>
      obtain ⟨front, last, hs, hconcat⟩ := ih
      rw [List.cons_append]
      cases hd : sep d with
      | true =>
          rw [splitAt_cons_sep hd, splitAt_cons_sep hd, hs, hconcat]
          exact ⟨[] :: front, last, rfl, rfl⟩
      | false =>
          cases front with
          | nil =>
              rw [splitAt_cons_other hd hs, splitAt_cons_other hd hconcat]
              exact ⟨[], d :: last, rfl, rfl⟩
          | cons piece front =>
              rw [splitAt_cons_other hd hs, splitAt_cons_other hd hconcat]
              exact ⟨(d :: piece) :: front, last, rfl, rfl⟩

/-- What does not look at a character at the end of a piece does not see one at the end
of the text. -/
theorem map_splitAt_concat {β : Type} {f : List Char → β} {c : Char} (hc : sep c = false)
    (hf : ∀ piece, f (piece ++ [c]) = f piece) (s : List Char) :
    (splitAt sep (s ++ [c])).map f = (splitAt sep s).map f := by
  obtain ⟨front, last, hs, hconcat⟩ := exists_splitAt_concat hc s
  rw [hs, hconcat, List.map_append, List.map_append, List.map_singleton, List.map_singleton, hf]

end Matinee.Text
