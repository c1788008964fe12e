/-
# `Matinee.Proofs.Json.Record` — what a record has been read from

A record is read into a draft, field by field.  What every field keeps of the draft holds
of the last one (`Keeps`), and a part of the draft that a single field decides about comes
from the value that stands in the tree for this field (`Decides`), be the record an object
or an array.  Both are inductions over the members of an object and over the fields of an
array; that a record comes from a draft at all is said once, in `exists_draft_of_record`.
-/
import Matinee.Proofs.Json.Finite

namespace Matinee.Json

/-! ## Steps that have succeeded -/

theorem ok_of_bind {x : Except ε α} {f : α → Except ε β} {b : β} (h : (x >>= f) = .ok b) :
    ∃ a, x = .ok a ∧ f a = .ok b := by
  cases x with
  | error e => cases h
  | ok a => exact ⟨a, rfl, h⟩

theorem ok_of_require {b : Bool} {f : Fault} {x : Except Fault α} {a : α}
    (h : (do Decoder.require b f; x) = .ok a) : b = true ∧ x = .ok a := by
  cases b with
  | false => cases h
  | true => exact ⟨rfl, h⟩

theorem mapM_ok_iff {d : α → Except ε β} {xs : List α} {ys : List β} :
    xs.mapM d = .ok ys ↔ List.Forall₂ (fun x y => d x = .ok y) xs ys := by
  constructor
  · intro h
    induction xs generalizing ys with
    | nil =>
        injection h with h
        exact h ▸ .nil
    | cons x xs ih =>
        rw [List.mapM_cons] at h
        obtain ⟨y, hy, h⟩ := ok_of_bind h
        obtain ⟨ys', hys, h⟩ := ok_of_bind h
        injection h with h
        exact h ▸ .cons hy (ih hys)
  · intro h
    induction h with
    | nil => rfl
    | cons hd _ ih =>
        rw [List.mapM_cons, hd, ih]
        rfl

theorem exists_of_mem_forall₂ {R : α → β → Prop} {xs : List α} {ys : List β}
    (h : List.Forall₂ R xs ys) {y : β} (hy : y ∈ ys) : ∃ x ∈ xs, R x y := by
  induction h with
  | nil => cases hy
  | cons hR _ ih =>
      rcases List.mem_cons.mp hy with rfl | hy
      · exact ⟨_, List.mem_cons_self, hR⟩
      · obtain ⟨x, hx, hR⟩ := ih hy
        exact ⟨x, List.mem_cons_of_mem _ hx, hR⟩

theorem exists_items_of_list {d : Decoder α} {t : Tree} {xs : List α}
    (h : Decoder.list d t = .ok xs) :
    ∃ items, t = .array items true ∧ List.Forall₂ (fun item x => d item = .ok x) items xs := by
  unfold Decoder.list at h
  split at h
  · rename_i items closed
    obtain ⟨ys, hitems, h⟩ := ok_of_bind h
    obtain ⟨rfl, h⟩ := ok_of_require h
    injection h with h
    exact ⟨items, rfl, mapM_ok_iff.mp (h ▸ hitems)⟩
  · cases h

theorem eq_of_uint64 {t : Tree} {n : UInt64} (h : Decoder.uint64 t = .ok n) :
    t = .scalar (.number (some (.whole n.toNat))) := by
  unfold Decoder.uint64 Decoder.natUpTo at h
  split at h
  · rename_i z
    split at h
    · rename_i hz
      injection h with h
      have hlt : z.toNat < 2 ^ 64 := by omega
      rw [← h, UInt64.toNat_ofNat_of_lt' hlt, Int.toNat_of_nonneg hz.1]
    · cases h
  · cases h

theorem eq_of_text {t : Tree} {s : String} (h : Decoder.text t = .ok s) :
    t = .scalar (.text (some s)) := by
  unfold Decoder.text at h
  split at h
  · injection h with h
    rw [h]
  · cases h

theorem ok_of_whole {d : Decoder α} {doc : Document} {a : α}
    (h : Decoder.whole d doc = .ok a) : d doc.root = .ok a := by
  obtain ⟨a', hroot, h⟩ := ok_of_bind h
  obtain ⟨-, h⟩ := ok_of_require h
  injection h with h
  exact h ▸ hroot

theorem whole_map (g : α → β) (d : Decoder α) (doc : Document) :
    Decoder.whole (fun t => g <$> d t) doc = g <$> Decoder.whole d doc := by
  simp only [Decoder.whole]
  cases d doc.root with
  | error f => rfl
  | ok a => cases doc.trailing <;> rfl

section Record

variable {σ : Type} {fields : List (RecordField σ)}

theorem exists_draft_of_record {blank : σ} {finish : σ → Option α} {t : Tree} {a : α}
    (h : Decoder.record fields blank finish t = .ok a) :
    ∃ draft, finish draft = some a ∧
      ((∃ ms, t = .object ms true ∧ Decoder.members fields [] blank ms = .ok draft) ∨
        ∃ items closed, t = .array items closed ∧
          Decoder.positions closed blank fields items = .ok draft) := by
  cases t with
  | fault => cases h
  | scalar v => cases h
  | object ms closed =>
      obtain ⟨draft, hmembers, h⟩ := ok_of_bind h
      obtain ⟨rfl, h⟩ := ok_of_require h
      simp only [pure_bind] at h
      split at h
      · rename_i b hfinish
        exact ⟨draft, Except.ok.inj h ▸ hfinish, .inl ⟨ms, rfl, hmembers⟩⟩
      · cases h
  | array items closed =>
      obtain ⟨draft, hpositions, h⟩ := ok_of_bind h
      beta_reduce at h
      split at h
      · rename_i b hfinish
        exact ⟨draft, Except.ok.inj h ▸ hfinish, .inr ⟨items, closed, rfl, hpositions⟩⟩
      · cases h

/-! ## What every field keeps -/

/-- Every field keeps a property of the draft, on trees with finite numbers. -/
def Keeps (fields : List (RecordField σ)) (P : σ → Prop) : Prop :=
  ∀ field ∈ fields, ∀ (draft draft' : σ) (t : Tree), t.Finite → P draft →
    field.read draft t = .ok draft' → P draft'

variable {P : σ → Prop}

theorem Keeps.members (hfields : Keeps fields P) {seen : List String} {draft draft' : σ}
    {ms : List (Option String × Tree)} (hms : ∀ p ∈ ms, p.2.Finite) (hdraft : P draft)
    (h : Decoder.members fields seen draft ms = .ok draft') : P draft' := by
  induction ms generalizing seen draft with
  | nil =>
      injection h with h
      exact h ▸ hdraft
  | cons p ms ih =>
      obtain ⟨hp, hrest⟩ := List.forall_mem_cons.mp hms
      obtain ⟨name, value⟩ := p
      cases name with
      | none => cases h
      | some name =>
          simp only [Decoder.members] at h
          split at h
          · exact ih hrest hdraft (ok_of_require h).2
          · rename_i field hfield
            obtain ⟨-, h⟩ := ok_of_require h
            obtain ⟨next, hread, h⟩ := ok_of_bind h
            have hmem := List.mem_of_find?_eq_some hfield
            exact ih hrest (hfields field hmem _ _ _ hp hdraft hread) h

theorem Keeps.positions (hfields : Keeps fields P) {closed : Bool} {draft draft' : σ}
    {items : List Tree} (hitems : ∀ t ∈ items, t.Finite) (hdraft : P draft)
    (h : Decoder.positions closed draft fields items = .ok draft') : P draft' := by
  induction fields generalizing draft items with
  | nil =>
      cases items with
      | nil =>
          obtain ⟨-, h⟩ := ok_of_require h
          injection h with h
          exact h ▸ hdraft
      | cons t items => cases h
  | cons field fields ih =>
      obtain ⟨hfield, hrest⟩ := List.forall_mem_cons.mp hfields
      cases items with
      | nil =>
          obtain ⟨-, h⟩ := ok_of_require h
          obtain ⟨-, h⟩ := ok_of_require h
          injection h with h
          exact h ▸ hdraft
      | cons t items =>
          obtain ⟨ht, hitems⟩ := List.forall_mem_cons.mp hitems
          obtain ⟨next, hread, h⟩ := ok_of_bind h
          exact ih hrest hitems (hfield _ _ _ ht hdraft hread) h

theorem Keeps.record (hfields : Keeps fields P) {blank : σ} (hblank : P blank)
    {finish : σ → Option α} {t : Tree} (ht : t.Finite) {a : α}
    (h : Decoder.record fields blank finish t = .ok a) :
    ∃ draft, P draft ∧ finish draft = some a := by
  obtain ⟨draft, hfinish, hdraft⟩ := exists_draft_of_record h
  refine ⟨draft, ?_, hfinish⟩
  rcases hdraft with ⟨ms, rfl, hmembers⟩ | ⟨items, closed, rfl, hpositions⟩
  · cases ht with
    | object hms => exact hfields.members hms hblank hmembers
  · cases ht with
    | array hitems => exact hfields.positions hitems hblank hpositions

/-! ## What one field decides about -/

/-- The value that stands in a tree for one of the fields with these names: in an object
the member of the name, in an array the item in the place of the field. -/
def Tree.field? (names : List String) (name : String) : Tree → Option Tree
  | .object ms _ => ms.lookup (some name)
  | .array items _ => (names.zip items).lookup name
  | _ => none

/-- A part of the draft is read by the field of one name, with `d`; the other fields leave
it alone. -/
def Decides (fields : List (RecordField σ)) (name : String) (d : Decoder β)
    (part : σ → Option β) : Prop :=
  ∀ field ∈ fields, ∀ (draft draft' : σ) (t : Tree), field.read draft t = .ok draft' →
    (field.name = name ∧ ∃ b, d t = .ok b ∧ part draft' = some b) ∨
      (field.name ≠ name ∧ part draft' = part draft)

variable {name : String} {d : Decoder β} {part : σ → Option β}

theorem Decides.nil : Decides ([] : List (RecordField σ)) name d part :=
  fun _ hfield => absurd hfield List.not_mem_nil

theorem Decides.here (h : Decides fields name d part) {needed : Bool} {put : σ → β → σ}
    (hput : ∀ draft b, part (put draft b) = some b) :
    Decides (⟨name, needed, fun draft t => do return put draft (← d t)⟩ :: fields) name d
      part := by
  intro field hfield draft draft' t hread
  rcases List.mem_cons.mp hfield with rfl | hfield
  · obtain ⟨b, hb, hread⟩ := ok_of_bind hread
    injection hread with hread
    exact .inl ⟨rfl, b, hb, hread ▸ hput draft b⟩
  · exact h field hfield draft draft' t hread

theorem Decides.there (h : Decides fields name d part) {other : String} (hother : other ≠ name)
    {needed : Bool} {e : Decoder γ} {put : σ → γ → σ}
    (hput : ∀ draft c, part (put draft c) = part draft) :
    Decides (⟨other, needed, fun draft t => do return put draft (← e t)⟩ :: fields) name d
      part := by
  intro field hfield draft draft' t hread
  rcases List.mem_cons.mp hfield with rfl | hfield
  · obtain ⟨c, -, hread⟩ := ok_of_bind hread
    injection hread with hread
    exact .inr ⟨hother, hread ▸ hput draft c⟩
  · exact h field hfield draft draft' t hread

/-- Once the member of the name has been met, the part stays. -/
theorem Decides.members_of_mem (h : Decides fields name d part) {seen : List String}
    (hseen : name ∈ seen) {draft draft' : σ} {ms : List (Option String × Tree)}
    (hread : Decoder.members fields seen draft ms = .ok draft') : part draft' = part draft := by
  induction ms generalizing seen draft with
  | nil =>
      injection hread with hread
      rw [hread]
  | cons p ms ih =>
      obtain ⟨given, value⟩ := p
      cases given with
      | none => cases hread
      | some given =>
          simp only [Decoder.members] at hread
          split at hread
          · exact ih hseen (ok_of_require hread).2
          · rename_i field hfield
            have hgiven : field.name = given := by simpa using List.find?_some hfield
            obtain ⟨hnew, hread⟩ := ok_of_require hread
            obtain ⟨next, hnext, hread⟩ := ok_of_bind hread
            rw [ih (List.mem_cons_of_mem _ hseen) hread]
            rcases h field (List.mem_of_find?_eq_some hfield) _ _ _ hnext with
              ⟨hname, -⟩ | ⟨-, heq⟩
            · -- a name is not taken twice
              rw [← hgiven, hname] at hnew
              simp [hseen] at hnew
            · exact heq

theorem Decides.members (h : Decides fields name d part) (hmem : name ∈ fields.map (·.name))
    {seen : List String} {draft draft' : σ} {ms : List (Option String × Tree)}
    (hread : Decoder.members fields seen draft ms = .ok draft') :
    part draft' = part draft ∨
      ∃ t b, ms.lookup (some name) = some t ∧ d t = .ok b ∧ part draft' = some b := by
  induction ms generalizing seen draft with
  | nil =>
      injection hread with hread
      exact .inl (by rw [hread])
  | cons p ms ih =>
      obtain ⟨given, value⟩ := p
      cases given with
      | none => cases hread
      | some given =>
          simp only [Decoder.members] at hread
          split at hread
          · rename_i hnone
            have hne : name ≠ given := by
              rintro rfl
              obtain ⟨field, hfield, hname⟩ := List.mem_map.mp hmem
              exact absurd (beq_iff_eq.mpr hname) (List.find?_eq_none.mp hnone field hfield)
            have hlookup : ((some given, value) :: ms).lookup (some name) =
                ms.lookup (some name) := by
              rw [List.lookup_cons, beq_false_of_ne (fun heq => hne (Option.some.inj heq))]
            rw [hlookup]
            exact ih (ok_of_require hread).2
          · rename_i field hfield
            have hgiven : field.name = given := by simpa using List.find?_some hfield
            obtain ⟨-, hread⟩ := ok_of_require hread
            obtain ⟨next, hnext, hread⟩ := ok_of_bind hread
            rcases h field (List.mem_of_find?_eq_some hfield) _ _ _ hnext with
              ⟨hname, b, hb, hpart⟩ | ⟨hname, heq⟩
            · rw [← hgiven, hname] at hread ⊢
              rw [h.members_of_mem List.mem_cons_self hread]
              exact .inr ⟨value, b, List.lookup_cons_self, hb, hpart⟩
            · have hlookup : ((some given, value) :: ms).lookup (some name) =
                  ms.lookup (some name) := by
                rw [List.lookup_cons, beq_false_of_ne]
                intro heq
                exact hname (hgiven.trans (Option.some.inj heq).symm)
              rw [hlookup, ← heq]
              exact ih hread

theorem Decides.positions (h : Decides fields name d part) (hnodup : (fields.map (·.name)).Nodup)
    {closed : Bool} {draft draft' : σ} {items : List Tree}
    (hread : Decoder.positions closed draft fields items = .ok draft') :
    part draft' = part draft ∨
      ∃ t b, ((fields.map (·.name)).zip items).lookup name = some t ∧ d t = .ok b ∧
        part draft' = some b := by
  induction fields generalizing draft items with
  | nil =>
      cases items with
      | nil =>
          obtain ⟨-, hread⟩ := ok_of_require hread
          injection hread with hread
          exact .inl (by rw [hread])
      | cons t items => cases hread
  | cons field fields ih =>
      obtain ⟨hfield, hrest⟩ := List.forall_mem_cons.mp h
      cases items with
      | nil =>
          obtain ⟨-, hread⟩ := ok_of_require hread
          obtain ⟨-, hread⟩ := ok_of_require hread
          injection hread with hread
          exact .inl (by rw [hread])
      | cons t items =>
          obtain ⟨hnew, hnodup⟩ : field.name ∉ fields.map (·.name) ∧ (fields.map (·.name)).Nodup :=
            List.nodup_cons.mp hnodup
          obtain ⟨next, hnext, hread⟩ := ok_of_bind hread
          rw [List.map_cons, List.zip_cons_cons]
          rcases hfield _ _ _ hnext with ⟨hname, b, hb, hpart⟩ | ⟨hname, heq⟩
          · rw [hname] at hnew ⊢
            rcases ih hrest hnodup hread with hstays | ⟨u, -, hu, -, -⟩
            · exact .inr ⟨t, b, List.lookup_cons_self, hb, hstays.trans hpart⟩
            · -- no field behind this one has the name
              obtain ⟨before, behind, hzip, -⟩ := List.lookup_eq_some_iff.mp hu
              have hmem : (name, u) ∈ (fields.map (·.name)).zip items :=
                hzip ▸ List.mem_append_right before List.mem_cons_self
              exact absurd (List.of_mem_zip hmem).1 hnew
          · rw [List.lookup_cons, beq_false_of_ne (Ne.symm hname), ← heq]
            exact ih hrest hnodup hread

/-- If a record cannot be finished without the part, it has it from the value that stands
in the tree for the field. -/
theorem Decides.record (h : Decides fields name d part) (hmem : name ∈ fields.map (·.name))
    (hnodup : (fields.map (·.name)).Nodup) {blank : σ} (hblank : part blank = none)
    {finish : σ → Option α} {get : α → β}
    (hfinish : ∀ draft a, finish draft = some a → part draft = some (get a)) {t : Tree} {a : α}
    (hread : Decoder.record fields blank finish t = .ok a) :
    ∃ v, t.field? (fields.map (·.name)) name = some v ∧ d v = .ok (get a) := by
  obtain ⟨draft, hdraft, hfrom⟩ := exists_draft_of_record hread
  have hvalue : part draft = part blank ∨
      ∃ v b, t.field? (fields.map (·.name)) name = some v ∧ d v = .ok b ∧ part draft = some b := by
    rcases hfrom with ⟨ms, rfl, hmembers⟩ | ⟨items, closed, rfl, hpositions⟩
    · exact h.members hmem hmembers
    · exact h.positions hnodup hpositions
  rw [hfinish draft a hdraft, hblank] at hvalue
  rcases hvalue with hnone | ⟨v, b, hv, hb, hsome⟩
  · cases hnone
  · exact ⟨v, hv, Option.some.inj hsome ▸ hb⟩

theorem Decides.number_of_record {part : σ → Option UInt64}
    (h : Decides fields name Decoder.uint64 part) (hmem : name ∈ fields.map (·.name))
    (hnodup : (fields.map (·.name)).Nodup) {blank : σ} (hblank : part blank = none)
    {finish : σ → Option α} {get : α → UInt64}
    (hfinish : ∀ draft a, finish draft = some a → part draft = some (get a)) {t : Tree} {a : α}
    (hread : Decoder.record fields blank finish t = .ok a) :
    t.field? (fields.map (·.name)) name =
      some (.scalar (.number (some (.whole (get a).toNat)))) := by
  obtain ⟨v, hv, hnumber⟩ := h.record hmem hnodup hblank hfinish hread
  exact eq_of_uint64 hnumber ▸ hv

theorem Decides.text_of_record {part : σ → Option String}
    (h : Decides fields name Decoder.text part) (hmem : name ∈ fields.map (·.name))
    (hnodup : (fields.map (·.name)).Nodup) {blank : σ} (hblank : part blank = none)
    {finish : σ → Option α} {get : α → String}
    (hfinish : ∀ draft a, finish draft = some a → part draft = some (get a)) {t : Tree} {a : α}
    (hread : Decoder.record fields blank finish t = .ok a) :
    t.field? (fields.map (·.name)) name = some (.scalar (.text (some (get a)))) := by
  obtain ⟨v, hv, htext⟩ := h.record hmem hnodup hblank hfinish hread
  exact eq_of_text htext ▸ hv

end Record

end Matinee.Json
