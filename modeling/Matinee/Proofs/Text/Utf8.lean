/-
# `Matinee.Proofs.Text.Utf8` — an octet below 0x80 stands for itself

Lossy decoding is a fold over octets (`Text.Utf8.run_append`), but a text may be
cut only where the fold stands between two characters.  An ASCII octet forces it
there: whatever is unfinished in front of it becomes one broken run, and the
octet is then read on its own.  So decoding commutes with a cut behind an ASCII
octet (`decodeLossy_append_ascii`), and an ASCII character of the text stems from
its own octet (`ofNat_mem_of_mem_decodeLossy`).

Both need the invariant `State.Sound` of the states that a text leads to: the
next octet has to be at least 0x80, and what has been read so far keeps the
character to come above ASCII.
-/
import Mathlib
import Matinee.Number.Whole
import Matinee.Text.Utf8

namespace Matinee.Text.Utf8

/-- What holds of every state that octets lead to. -/
def State.Sound : State → Prop
  | .start => True
  | .inside owed low _ value => 0x80 ≤ low ∧ 0x80 ≤ (value * 64 + (low - 0x80)) * 64 ^ owed

/-! ## The states that octets lead to -/

theorem sound_start : State.Sound .start := trivial

theorem first_sound (b : Nat) : (first b).2.Sound := by
  unfold first
  repeat' split
  all_goals simp only [State.Sound]
  all_goals omega

theorem le_value_of_mem_range {owed low value b : Nat} (hb : low ≤ b)
    (h : 0x80 ≤ (value * 64 + (low - 0x80)) * 64 ^ owed) :
    0x80 ≤ (value * 64 + (b - 0x80)) * 64 ^ owed :=
  Nat.le_trans h (Nat.mul_le_mul_right _ (by omega))

theorem step_sound {st : State} (h : st.Sound) (b : UInt8) : (step st b).2.Sound := by
  cases st with
  | start => exact first_sound _
  | inside owed low high value =>
      simp only [step]
      split
      · rename_i hb
        have hv := le_value_of_mem_range hb.1 h.2
        cases owed with
        | zero => trivial
        | succ owed =>
            refine ⟨Nat.le_refl _, ?_⟩
            calc 0x80 ≤ (value * 64 + (b.toNat - 0x80)) * 64 ^ (owed + 1) := hv
              _ = ((value * 64 + (b.toNat - 0x80)) * 64 + (0x80 - 0x80)) * 64 ^ owed := by
                  rw [Nat.pow_succ, Nat.mul_comm (64 ^ owed), ← Nat.mul_assoc, Nat.sub_self,
                    Nat.add_zero]
      · exact first_sound b.toNat

theorem run_sound {st : State} (h : st.Sound) (out : List Symbol) (bytes : List UInt8) :
    (run st out bytes).1.Sound := by
  induction bytes generalizing st out with
  | nil => exact h
  | cons b bytes ih => exact ih (step_sound h b) _

/-! ## A cut behind an ASCII octet -/

theorem first_ascii {b : Nat} (h : b < 0x80) : first b = ([some (Char.ofNat b)], .start) := by
  simp [first, h]

/-- An ASCII octet ends whatever has begun, and is then a character. -/
theorem step_ascii {st : State} (hs : st.Sound) {b : UInt8} (hb : b.toNat < 0x80) :
    step st b = (flush st ++ [some (Char.ofNat b.toNat)], .start) := by
  cases st with
  | start => simp [step, flush, first_ascii hb]
  | inside owed low high value =>
      have hlow : ¬ (low ≤ b.toNat ∧ b.toNat ≤ high) := fun h => by
        have := hs.1
        omega
      simp [step, flush, if_neg hlow, first_ascii hb]

theorem reverse_flush (st : State) : (flush st).reverse = flush st := by
  cases st <;> rfl

theorem symbols_append_ascii (a : List UInt8) {b : UInt8} (hb : b.toNat < 0x80) (c : List UInt8) :
    symbols (a ++ b :: c) = symbols a ++ some (Char.ofNat b.toNat) :: symbols c := by
  have hs : (run .start [] a).1.Sound := run_sound sound_start _ _
  have hcut : run .start [] (a ++ b :: c) =
      run .start (some (Char.ofNat b.toNat) :: (flush (run .start [] a).1 ++ (run .start [] a).2))
        c := by
    rw [run_append]
    show run (step (run .start [] a).1 b).2 ((step (run .start [] a).1 b).1.reverse ++ _) c = _
    rw [step_ascii hs hb]
    simp [reverse_flush]
  simp only [symbols, hcut]
  rw [run_out]
  simp

/-- A text may be cut behind any of its ASCII octets first. -/
theorem decodeLossy_append_ascii (a : List UInt8) {b : UInt8} (hb : b.toNat < 0x80)
    (c : List UInt8) :
    decodeLossy (a ++ b :: c) = decodeLossy a ++ Char.ofNat b.toNat :: decodeLossy c := by
  simp [decodeLossy, symbols_append_ascii a hb c]

/-! ## Where ASCII characters come from -/

theorem toNat_ofNat_of_ne {n : Nat} (h : Char.ofNat n ≠ '\x00') : (Char.ofNat n).toNat = n := by
  by_cases hv : n.isValidChar
  · simp [Char.ofNat, hv, Char.ofNatAux, Char.toNat]
  · exact absurd (by rw [Char.ofNat, dif_neg hv]; rfl) h

theorem eq_ofNat_of_mem_first {b : Nat} {c : Char} (h : some c ∈ (first b).1) :
    c = Char.ofNat b := by
  unfold first at h
  repeat' split at h
  all_goals simp at h
  exact h

/-- An ASCII character that an octet settles is that octet; NUL is left out, as it
would also stand in for a code point that is none. -/
theorem eq_ofNat_of_mem_step {st : State} (hs : st.Sound) {b : UInt8} {c : Char}
    (h : some c ∈ (step st b).1) (hc : c.toNat < 0x80) (h0 : c ≠ '\x00') :
    c = Char.ofNat b.toNat := by
  cases st with
  | start => exact eq_ofNat_of_mem_first h
  | inside owed low high value =>
      simp only [step] at h
      split at h
      · rename_i hb
        have hv := le_value_of_mem_range hb.1 hs.2
        cases owed with
        | zero =>
            have hval : c = Char.ofNat (value * 64 + (b.toNat - 0x80)) :=
              Option.some.inj (List.mem_singleton.mp h)
            rw [hval, toNat_ofNat_of_ne fun h => h0 (hval.trans h)] at hc
            rw [Nat.pow_zero, Nat.mul_one] at hv
            omega
        | succ owed => simp at h
      · have hmem : some c ∈ none :: (first b.toNat).1 := h
        exact eq_ofNat_of_mem_first ((List.mem_cons.mp hmem).resolve_left (Option.some_ne_none c))

theorem exists_mem_of_mem_run {st : State} (hs : st.Sound) {out : List Symbol}
    {bytes : List UInt8} {c : Char} (h : some c ∈ (run st out bytes).2) (hc : c.toNat < 0x80)
    (h0 : c ≠ '\x00') : some c ∈ out ∨ ∃ b ∈ bytes, c = Char.ofNat b.toNat := by
  induction bytes generalizing st out with
  | nil => exact .inl h
  | cons b bytes ih =>
      rcases ih (step_sound hs b) h with hout | ⟨b', hb', hcb⟩
      · rcases List.mem_append.mp hout with hnew | hold
        · exact .inr ⟨b, List.mem_cons_self,
            eq_ofNat_of_mem_step hs (List.mem_reverse.mp hnew) hc h0⟩
        · exact .inl hold
      · exact .inr ⟨b', List.mem_cons_of_mem _ hb', hcb⟩

theorem exists_mem_of_mem_decodeLossy {bytes : List UInt8} {c : Char}
    (h : c ∈ decodeLossy bytes) (hc : c.toNat < 0x80) (h0 : c ≠ '\x00') :
    ∃ b ∈ bytes, c = Char.ofNat b.toNat := by
  obtain ⟨s, hs, rfl⟩ := List.mem_map.mp h
  cases s with
  | none => exact absurd hc (by decide)
  | some c =>
      have hrun : some c ∈ flush (run .start [] bytes).1 ++ (run .start [] bytes).2 :=
        List.mem_reverse.mp hs
      rcases List.mem_append.mp hrun with hflush | hrun
      · cases hst : (run .start [] bytes).1 <;> simp [hst, flush] at hflush
      · exact (exists_mem_of_mem_run sound_start hrun hc h0).resolve_left
          List.not_mem_nil

end Matinee.Text.Utf8
