/-
# `Matinee.Proofs.Json.Finite` — a text holds finite numbers only

A JSON number that is out of range has no value, so whatever number a tree holds
is finite.  The law is carried through the whole reading of a text: from the
parts of a number to its value, from the tokens of the scanner into the stack of
the builder, and from there into the tree.
-/
import Matinee.Json.Decode
import Matinee.Proofs.Number.Rounding

namespace Matinee.Json

open Matinee.Number (Below FromOne isFinite)

/-! ## The value of a number -/

/-- A number with a finite double. -/
def Number.Finite : Number → Prop
  | .whole n => n.natAbs < 2 ^ 64
  | .real x => isFinite x = true

namespace Number

theorem absorb_lt {n : Nat} (h : n < 2 ^ 64) (s : List Char) : (absorb n s).1 < 2 ^ 64 := by
  induction s generalizing n with
  | nil => exact h
  | cons c s ih =>
      rw [absorb]
      split
      · rename_i hfits
        exact ih (of_decide_eq_true hfits)
      · exact h

theorem scaled_lt (whole fraction : List Char) : (scaled whole fraction).significand < 2 ^ 64 :=
  absorb_lt (absorb_lt (by decide) whole) fraction

/-- Scaling overflows openly or stays finite; each of its quotients may move the
first digit up by a place. -/
theorem isFinite_scale {x y : Float} {power : Int} {fuel : Nat} {t : Int} (hlow : -1023 ≤ t)
    (hhigh : t + fuel ≤ 970) (hx : Below t x.toModel.unpack)
    (h : scale x power fuel = some y) : isFinite y = true := by
  induction fuel generalizing x power t with
  | zero =>
      injection h with h
      rw [← h, Number.isFinite_eq]
      exact hx.isFinite
  | succ fuel ih =>
      rw [scale] at h
      dsimp only at h
      split at h
      · rename_i hpower
        have hone := Number.fromOne_tenPower hpower
        split at h
        · split at h
          · cases h
          · rename_i hinf
            injection h with h
            rw [← h]
            refine Number.isFinite_mul ?_ ?_ (Bool.eq_false_iff.mpr hinf)
            · rw [Number.isFinite_eq]
              exact hx.isFinite
            · rw [Number.isFinite_eq]
              exact hone.isFinite
        · injection h with h
          rw [← h, Number.isFinite_eq]
          exact (Number.below_float_div hlow (by omega) hx hone).isFinite
      split at h
      · injection h with h
        rw [← h, Number.isFinite_eq]
        exact hx.isFinite
      split at h
      · cases h
      · have hquotient := Number.below_float_div hlow (by omega) hx
          (Number.fromOne_tenPower (Nat.le_refl 308))
        exact ih (by omega) (by push_cast at hhigh; omega) hquotient h

theorem isFinite_value? {s : Scaled} {x : Float} (hs : s.significand < 2 ^ 64)
    (h : s.value? = some x) : isFinite x = true :=
  isFinite_scale (by decide) (by decide) (Number.below_ofNat hs) h

theorem isFinite_magnitude? {p : Parts} {x : Float} (h : p.magnitude? = some x) :
    isFinite x = true := by
  have hsignificand := scaled_lt p.whole (p.fraction.getD [])
  unfold Parts.magnitude? at h
  generalize scaled p.whole (p.fraction.getD []) = s at h hsignificand
  dsimp only at h
  split at h
  · exact isFinite_value? hsignificand h
  split at h
  · refine isFinite_value? ?_ h
    exact hsignificand
  split at h
  · injection h with h
    rw [← h]
    decide +kernel
  · cases h

theorem finite_of_value? {p : Parts} {v : Number} (h : p.value? = some v) : v.Finite := by
  have hwhole := absorb_lt (n := 0) (by decide) p.whole
  have hreal : ∀ w ∈ p.magnitude?.map fun x => Number.real (if p.negative then -x else x),
      w.Finite := by
    intro w hw
    obtain ⟨x, hx, rfl⟩ := Option.map_eq_some_iff.mp hw
    have hfinite := isFinite_magnitude? hx
    change isFinite (if p.negative then -x else x) = true
    split
    · exact Number.isFinite_neg hfinite
    · exact hfinite
  unfold Parts.value? at h
  generalize (p.magnitude?.map fun x => Number.real (if p.negative then -x else x)) = real
    at h hreal
  dsimp only at h
  split at h
  · exact hreal v h
  split at h
  · split at h
    · injection h with h
      rw [← h, Number.Finite]
      omega
    · exact hreal v h
  · injection h with h
    rw [← h, Number.Finite]
    omega

end Number

/-! ## Trees -/

/-- A scalar whose number, if it is one, is finite. -/
def Scalar.Finite : Scalar → Prop
  | .number n => ∀ v ∈ n, v.Finite
  | _ => True

/-- A tree with finite numbers only. -/
inductive Tree.Finite : Tree → Prop where
  | fault : Finite .fault
  | scalar {s : Scalar} (h : s.Finite) : Finite (.scalar s)
  | array {items : List Tree} {closed : Bool} (h : ∀ t ∈ items, Finite t) :
      Finite (.array items closed)
  | object {members : List (Option String × Tree)} {closed : Bool} (h : ∀ p ∈ members, Finite p.2) :
      Finite (.object members closed)

theorem isFinite_of_real {t : Tree} {x : Float} (ht : t.Finite) (h : Decoder.real t = .ok x) :
    isFinite x = true := by
  unfold Decoder.real at h
  split at h
  · rename_i n
    injection h with h
    cases ht with
    | scalar hs =>
        have hn : n.natAbs < 2 ^ 64 := hs _ rfl
        rw [← h]
        exact Number.isFinite_ofInt hn
  · injection h with h
    cases ht with
    | scalar hs =>
        rw [← h]
        exact hs _ rfl
  · cases h

/-! ## The builder -/

def Frame.Finite : Frame → Prop
  | .array items => ∀ t ∈ items, t.Finite
  | .object members _ => ∀ p ∈ members, p.2.Finite

def Builder.Finite : Builder → Prop
  | .building frames _ => ∀ f ∈ frames, f.Finite
  | .complete root _ | .broken root => root.Finite

def Token.Finite : Token → Prop
  | .scalar s => s.Finite
  | _ => True

namespace Builder

theorem finite_put {v : Tree} {frames : List Frame} (hv : v.Finite) (h : ∀ f ∈ frames, f.Finite) :
    (put v frames).Finite := by
  cases frames with
  | nil => exact hv
  | cons f frames =>
      obtain ⟨hf, hframes⟩ := List.forall_mem_cons.mp h
      cases f with
      | array items => exact List.forall_mem_cons.mpr ⟨List.forall_mem_cons.mpr ⟨hv, hf⟩, hframes⟩
      | object members pending =>
          exact List.forall_mem_cons.mpr ⟨List.forall_mem_cons.mpr ⟨hv, hf⟩, hframes⟩

theorem finite_abandon {inner : Option Tree} {frames : List Frame} (hinner : ∀ t ∈ inner, t.Finite)
    (h : ∀ f ∈ frames, f.Finite) : (abandon inner frames).Finite := by
  have hgetD : (inner.getD .fault).Finite := by
    cases inner with
    | none => exact .fault
    | some t => exact hinner t rfl
  induction frames generalizing inner with
  | nil => exact hgetD
  | cons f frames ih =>
      obtain ⟨hf, hframes⟩ := List.forall_mem_cons.mp h
      have hopen {t : Tree} (ht : t.Finite) : (abandon (some t) frames).Finite :=
        ih (fun u hu => Option.mem_some.mp hu ▸ ht) hframes ht
      cases f with
      | array items =>
          refine hopen (.array fun t ht => ?_)
          rcases List.mem_append.mp (List.mem_reverse.mp ht) with ht | ht
          · exact hinner t (Option.mem_toList.mp ht)
          · exact hf t ht
      | object members pending =>
          cases pending with
          | none => exact hopen (.object fun p hp => hf p (List.mem_reverse.mp hp))
          | some name =>
              refine hopen (.object fun p hp => ?_)
              rcases List.mem_cons.mp (List.mem_reverse.mp hp) with rfl | hp
              · exact hgetD
              · exact hf p hp

theorem finite_add {b : Builder} {t : Token} (hb : b.Finite) (ht : t.Finite) :
    (b.add t).Finite := by
  fun_cases add b t
  case case1 | case2 => exact hb
  case case3 | case4 => exact finite_put (.scalar ht) hb
  case case5 | case6 => exact List.forall_mem_cons.mpr ⟨fun _ h => absurd h List.not_mem_nil, hb⟩
  case case7 | case8 => exact List.forall_mem_cons.mpr ⟨fun _ h => absurd h List.not_mem_nil, hb⟩
  case case9 items rest | case10 items rest =>
    obtain ⟨hitems, hrest⟩ := List.forall_mem_cons.mp hb
    exact finite_put (.array fun t ht => hitems t (List.mem_reverse.mp ht)) hrest
  case case11 members rest | case12 members rest =>
    obtain ⟨hmembers, hrest⟩ := List.forall_mem_cons.mp hb
    exact finite_put (.object fun p hp => hmembers p (List.mem_reverse.mp hp)) hrest
  case case13 | case14 | case17 => exact hb
  case case15 | case16 =>
    obtain ⟨hmembers, hrest⟩ := List.forall_mem_cons.mp hb
    exact List.forall_mem_cons.mpr ⟨hmembers, hrest⟩
  case case18 frames _ _ => exact finite_abandon (fun _ h => nomatch h) hb

theorem finite_foldl_add {b : Builder} {ts : List Token} (hb : b.Finite)
    (hts : ∀ t ∈ ts, t.Finite) :
    (ts.foldl add b).Finite := by
  induction ts generalizing b with
  | nil => exact hb
  | cons t ts ih =>
      obtain ⟨ht, hts⟩ := List.forall_mem_cons.mp hts
      exact ih (finite_add hb ht) hts

end Builder

/-! ## The scanner -/

/-- The word that is being read means no number. -/
def Scan.State.Finite : Scan.State → Prop
  | .word _ meaning => meaning.Finite
  | _ => True

theorem Scan.finite_token (n : Scan.Numeral) : n.token.Finite := by
  unfold Scan.Numeral.token
  split
  · exact fun v hv => Number.finite_of_value? hv
  · trivial

/-- What a symbol has led to. -/
def Scan.Settled (r : Scan.State × List Token) : Prop := r.1.Finite ∧ ∀ t ∈ r.2, t.Finite

theorem Scan.settled_nil {scan : Scan.State} (h : scan.Finite) : Scan.Settled (scan, []) :=
  ⟨h, fun _ ht => absurd ht List.not_mem_nil⟩

theorem Scan.settled_one {scan : Scan.State} {t : Token} (h : scan.Finite) (ht : t.Finite) :
    Scan.Settled (scan, [t]) := ⟨h, List.forall_mem_singleton.mpr ht⟩

theorem Scan.settled_start (c : Char) : Scan.Settled (Scan.start c) := by
  fun_cases Scan.start c
  all_goals first | exact settled_nil trivial | exact settled_one trivial trivial

theorem Scan.settled_quote (q : Scan.Quotation) (c : Char) : Scan.Settled (Scan.quote q c) := by
  fun_cases Scan.quote q c
  all_goals first | exact settled_nil trivial | exact settled_one trivial trivial

theorem Scan.settled_step {scan : Scan.State} (h : scan.Finite) (s : Text.Utf8.Symbol) :
    Scan.Settled (Scan.step scan s) := by
  fun_cases Scan.step scan s
  case case1 | case3 => exact settled_nil trivial
  case case2 q c => exact settled_quote q c
  case case6 c => exact settled_start c
  case case7 => exact settled_one trivial h
  case case8 => exact settled_nil h
  case case4 | case5 | case9 | case10 => exact settled_one trivial trivial
  case case11 => exact settled_nil trivial
  case case12 n c _ _ scan tokens hstart =>
    obtain ⟨hscan, htokens⟩ : Settled (scan, tokens) := hstart ▸ settled_start c
    exact ⟨hscan, List.forall_mem_cons.mpr ⟨finite_token n, htokens⟩⟩
  case case13 => exact settled_one trivial trivial

theorem Scan.finite_finish (scan : Scan.State) : ∀ t ∈ Scan.finish scan, t.Finite := by
  cases scan with
  | between => exact fun _ h => absurd h List.not_mem_nil
  | stopped => exact fun _ h => absurd h List.not_mem_nil
  | numeral n => exact List.forall_mem_singleton.mpr (Scan.finite_token n)
  | word rest meaning => exact List.forall_mem_singleton.mpr trivial
  | quotation q => exact List.forall_mem_singleton.mpr trivial

/-! ## Whole texts -/

def Document.State.Finite (st : Document.State) : Prop := st.scan.Finite ∧ st.builder.Finite

theorem Document.State.finite_step {st : Document.State} (h : st.Finite) (s : Text.Utf8.Symbol) :
    (st.step s).Finite := by
  obtain ⟨hscan, htokens⟩ := Scan.settled_step h.1 s
  exact ⟨hscan, Builder.finite_foldl_add h.2 htokens⟩

theorem Document.State.finite_finish {st : Document.State} (h : st.Finite) :
    st.finish.root.Finite := by
  have hbuilder := Builder.finite_foldl_add h.2 (Scan.finite_finish st.scan)
  unfold Document.State.finish
  split <;> rename_i heq <;> rw [heq] at hbuilder
  · exact hbuilder
  · exact hbuilder
  · exact Builder.finite_abandon (fun _ h => nomatch h) hbuilder

theorem Document.finite_ofSymbols (s : List Text.Utf8.Symbol) :
    (Document.ofSymbols s).root.Finite := by
  have hfold : ∀ st : Document.State, st.Finite → (s.foldl Document.State.step st).Finite := by
    induction s with
    | nil => exact fun _ h => h
    | cons x s ih => exact fun st h => ih _ (State.finite_step h x)
  refine Document.State.finite_finish (hfold .start ⟨trivial, ?_⟩)
  exact fun _ h => absurd h List.not_mem_nil

/-- Whatever the text, the tree that it is read as is finite. -/
theorem Document.finite_ofText (s : String) : (Document.ofText s).root.Finite :=
  Document.finite_ofSymbols _

end Matinee.Json
