/-
# `Matinee.Proofs.Json.Written` — decoding what has been written

A written list is decoded item by item, and a written object member by member: `Takes`
says what some written members make of a draft, whatever stands behind them.  So it is
enough to know, of every value that is written, which tree it is read as and what is
decoded from that tree.
-/
import Matinee.Proofs.Json.Record
import Matinee.Proofs.Json.RoundTrip

namespace Matinee.Json

/-! ## Lists -/

theorem exists_list {f : α → Json} {g : α → β} {d : Decoder β} {xs : List α}
    (h : ∀ x ∈ xs, ∃ t, ReadAs (f x) t ∧ d t = .ok (g x)) :
    ∃ t, SealedAs (.array (xs.map f)) t ∧ Decoder.list d t = .ok (xs.map g) := by
  obtain ⟨ts, hread, hdecode⟩ : ∃ ts, List.Forall₂ ReadAs (xs.map f) ts ∧
      List.Forall₂ (fun t y => d t = .ok y) ts (xs.map g) := by
    induction xs with
    | nil => exact ⟨[], .nil, .nil⟩
    | cons x xs ih =>
        obtain ⟨t, ht, hd⟩ := h x List.mem_cons_self
        obtain ⟨ts, hts, hds⟩ := ih fun y hy => h y (List.mem_cons_of_mem _ hy)
        exact ⟨t :: ts, .cons ht hts, .cons hd hds⟩
  refine ⟨_, sealedAs_array hread, ?_⟩
  rw [Decoder.list, mapM_ok_iff.mpr hdecode]
  rfl

/-! ## Members of a record -/

/-- Reading the written members `ms` turns the draft into `draft'`.  The names met
before are among `known`, those met then among `known'`. -/
def Takes (fields : List (RecordField σ)) (known : List String) (draft : σ)
    (ms : List (String × Json)) (known' : List String) (draft' : σ) : Prop :=
  ∃ ps, List.Forall₂ MemberReadAs ms ps ∧
    ∀ seen ⊆ known, ∃ seen' ⊆ known', ∀ rest,
      Decoder.members fields seen draft (ps ++ rest) = Decoder.members fields seen' draft' rest

section Takes

variable {σ : Type} {fields : List (RecordField σ)}
variable {known known' known'' : List String} {draft draft' draft'' : σ}

theorem Takes.append {ms ns : List (String × Json)}
    (hms : Takes fields known draft ms known' draft')
    (hns : Takes fields known' draft' ns known'' draft'') :
    Takes fields known draft (ms ++ ns) known'' draft'' := by
  obtain ⟨ps, hps, hfirst⟩ := hms
  obtain ⟨qs, hqs, hsecond⟩ := hns
  refine ⟨ps ++ qs, List.rel_append hps hqs, fun seen hseen => ?_⟩
  obtain ⟨seen', hseen', hmembers⟩ := hfirst seen hseen
  obtain ⟨seen'', hseen'', hmembers'⟩ := hsecond seen' hseen'
  refine ⟨seen'', hseen'', fun rest => ?_⟩
  rw [List.append_assoc, hmembers, hmembers']

/-- A member whose value goes into one place of the draft. -/
theorem takes_one (name : String) {needed : Bool} {v : Json} {d : Decoder α} {a : α}
    (set : σ → α → σ)
    (hfield : fields.find? (·.name == name) =
      some ⟨name, needed, fun draft t => do return set draft (← d t)⟩)
    (hname : name ∉ known) (hread : ∃ t, ReadAs v t ∧ d t = .ok a) :
    Takes fields known draft [(name, v)] (name :: known) (set draft a) := by
  obtain ⟨t, ht, hd⟩ := hread
  refine ⟨[(some name, t)], .cons ⟨rfl, ht⟩ .nil, fun seen hseen => ?_⟩
  refine ⟨name :: seen, List.cons_subset_cons name hseen, fun rest => ?_⟩
  have hfresh : seen.contains name = false := by
    rw [List.contains_eq_mem, decide_eq_false_iff_not]
    exact fun hmem => hname (hseen hmem)
  simp only [List.singleton_append, Decoder.members, hfield, hfresh, Decoder.require, hd]
  rfl

theorem Takes.exists_record {ms : List (String × Json)} {finish : σ → Option α} {a : α}
    (h : Takes fields [] draft ms known draft') (hfinish : finish draft' = some a) :
    ∃ t, SealedAs (.object ms) t ∧ Decoder.record fields draft finish t = .ok a := by
  obtain ⟨ps, hps, hmembers⟩ := h
  obtain ⟨seen, -, hrest⟩ := hmembers [] (List.Subset.refl [])
  refine ⟨_, sealedAs_object hps, ?_⟩
  have hall : Decoder.members fields [] draft ps = .ok draft' := by
    have hnil := hrest []
    rwa [List.append_nil] at hnil
  simp only [Decoder.record, hall, Decoder.require]
  simp only [bind, Except.bind, pure, Except.pure, if_true, hfinish]

end Takes

/-! ## Values -/

theorem exists_uint64 (n : UInt64) :
    ∃ t, ReadAs (.whole n.toNat) t ∧ Decoder.uint64 t = .ok n := by
  have hlt := n.toNat_lt
  refine ⟨_, readAs_whole (by omega) (by omega), ?_⟩
  have hrange : 0 ≤ (n.toNat : Int) ∧ (n.toNat : Int) ≤ (2 ^ 64 - 1 : Nat) := by omega
  rw [Decoder.uint64, Decoder.natUpTo, if_pos hrange, Int.toNat_natCast]
  exact congrArg Except.ok (UInt64.ofNat_toNat)

theorem exists_text (s : String) : ∃ t, ReadAs (.text s) t ∧ Decoder.text t = .ok s :=
  ⟨_, (sealedAs_text s).readAs, rfl⟩

theorem exists_optional {v : Json} {d : Decoder α} {a : α} (h : ∃ t, ReadAs v t ∧ d t = .ok a)
    (hnull : d (.scalar .null) ≠ .ok a) :
    ∃ t, ReadAs v t ∧ Decoder.optional d t = .ok (some a) := by
  obtain ⟨t, ht, hd⟩ := h
  refine ⟨t, ht, ?_⟩
  unfold Decoder.optional
  split
  · exact absurd hd hnull
  · rw [hd]
    rfl

end Matinee.Json
