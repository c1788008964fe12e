/-
# `Matinee.Proofs.Rating.Links` — a link stands until a later row touches one of its ids

One new link may part two older pairs, one through each direction of the table.
Both directions have to lose both, or a pair is left that is found from one side
only.  The invariant of all tables is that the two directions say the same
(`OneToOne`).  Under it an insertion reads the same way in both of them: the new
pair is there, and of the older ones those that share no id with it.

That is also how the last rows of a file that mention an id change by one more
row (`standing_concat`), so the table of some rows holds the pairs that stand in
them (`linked_iff_standing`).
-/
import Mathlib.Data.List.Induction
import Matinee.Rating.Links

namespace Matinee.Rating.Links

open Dataset (Link)

/-- Some row links `external` with `item`, and no row behind it mentions either. -/
def Standing (rows : List Link) (external item : UInt64) : Prop :=
  ∃ earlier later, rows = earlier ++ ⟨item, external⟩ :: later ∧
    ∀ row ∈ later, row.external ≠ external ∧ row.item ≠ item

theorem not_standing_nil (external item : UInt64) : ¬ Standing [] external item := by
  rintro ⟨earlier, later, h, -⟩
  exact List.append_ne_nil_of_right_ne_nil _ (List.cons_ne_nil _ _) h.symm

/-- One more row stands itself, and ends whatever shares an id with it. -/
theorem standing_concat {rows : List Link} {row : Link} {external item : UInt64} :
    Standing (rows ++ [row]) external item ↔
      (row.external = external ∧ row.item = item) ∨
        (Standing rows external item ∧ row.external ≠ external ∧ row.item ≠ item) := by
  constructor
  · rintro ⟨earlier, later, h, hlater⟩
    rcases List.eq_nil_or_concat later with rfl | ⟨later, last, rfl⟩
    · obtain ⟨-, hrow⟩ := List.append_inj' h rfl
      obtain rfl := List.singleton_inj.mp hrow
      exact .inl ⟨rfl, rfl⟩
    · rw [List.concat_eq_append] at h hlater
      obtain ⟨hrows, hrow⟩ :=
        List.append_inj' (h.trans (List.append_assoc earlier (_ :: later) _).symm) rfl
      obtain rfl := List.singleton_inj.mp hrow
      refine .inr ⟨⟨earlier, later, hrows, fun row hr => ?_⟩, ?_⟩
      · exact hlater row (List.mem_append_left _ hr)
      · exact hlater _ (List.mem_append_right _ List.mem_cons_self)
  · rintro (⟨rfl, rfl⟩ | ⟨⟨earlier, later, rfl, hlater⟩, hrow⟩)
    · exact ⟨rows, [], rfl, fun row hr => absurd hr List.not_mem_nil⟩
    · refine ⟨earlier, later ++ [row], by simp, fun other ho => ?_⟩
      rcases List.mem_append.mp ho with ho | ho
      · exact hlater other ho
      · exact List.mem_singleton.mp ho ▸ hrow

/-! ## One insertion -/

/-- Both directions hold the same pairs. -/
structure OneToOne (l : Links) : Prop where
  item_iff : ∀ external item, l.item? external = some item ↔ l.external? item = some external
  size_eq : l.externalOf.size = l.itemOf.size

variable {l : Links}

theorem oneToOne_empty : OneToOne empty where
  item_iff := by simp [empty, item?, external?]
  size_eq := rfl

theorem insert_fst (l : Links) (external item : UInt64) :
    (l.insert external item).1 = l.item? external := by
  simp only [insert, item?]
  split
  · split
    · rfl
    · rename_i hne
      simp [Std.ExtHashMap.getElem?_erase, hne]
  · rfl

/-- The way from external ids to items after an insertion: the new item is taken from
the external id that had it. -/
theorem insert_itemOf (l : Links) (external item : UInt64) :
    (l.insert external item).2.itemOf =
      (match l.external? item with
        | some old => if old = external then l.itemOf else l.itemOf.erase old
        | none => l.itemOf).insert external item := rfl

/-- The way back after it: the item that the external id had is let go. -/
theorem insert_externalOf (l : Links) (external item : UInt64) :
    (l.insert external item).2.externalOf =
      match l.item? external with
        | some old =>
          if old = item then l.externalOf.insert item external
          else (l.externalOf.insert item external).erase old
        | none => l.externalOf.insert item external := by
  rw [← insert_fst]
  rfl

/-- Of the older pairs an insertion keeps those that share no id with the new one. -/
theorem item?_insert_iff (h : OneToOne l) {external item e i : UInt64} :
    (l.insert external item).2.item? e = some i ↔
      (external = e ∧ item = i) ∨ (l.item? e = some i ∧ external ≠ e ∧ item ≠ i) := by
  rw [item?, insert_itemOf]
  cases hold : l.external? item with
  | none =>
      have hfree (e : UInt64) : l.item? e ≠ some item := fun he => by
        simp [(h.item_iff e item).mp he] at hold
      grind [item?]
  | some old =>
      have hheld (e : UInt64) : l.item? e = some item ↔ old = e := by
        rw [h.item_iff, hold, Option.some_inj]
      grind [item?]

theorem external?_insert_iff (h : OneToOne l) {external item e i : UInt64} :
    (l.insert external item).2.external? i = some e ↔
      (external = e ∧ item = i) ∨ (l.external? i = some e ∧ external ≠ e ∧ item ≠ i) := by
  rw [external?, insert_externalOf]
  cases hold : l.item? external with
  | none =>
      have hfree (i : UInt64) : l.external? i ≠ some external := fun hi => by
        simp [(h.item_iff external i).mpr hi] at hold
      grind [external?]
  | some old =>
      have hheld (i : UInt64) : l.external? i = some external ↔ old = i := by
        rw [← h.item_iff, hold, Option.some_inj]
      grind [external?]

theorem size_itemOf_pos {external item : UInt64} (h : l.item? external = some item) :
    0 < l.itemOf.size := by
  refine Nat.pos_of_ne_zero fun hzero => ?_
  have hempty : l.itemOf = ∅ := Std.ExtHashMap.eq_empty_iff_size_eq_zero.mpr hzero
  simp [item?, hempty] at h

/-- Of the two pairs that a new link may part, each direction loses one when it takes
the new key in, and the other one by hand. -/
theorem insert_size_eq (h : OneToOne l) (external item : UInt64) :
    (l.insert external item).2.externalOf.size = (l.insert external item).2.itemOf.size := by
  have hsize := h.size_eq
  rw [insert_itemOf, insert_externalOf]
  cases hheld : l.external? item with
  | none =>
      cases hold : l.item? external with
      | none => grind [external?, item?]
      | some old =>
          have hback : l.external? old = some external := (h.item_iff external old).mp hold
          grind [external?, item?]
  | some held =>
      have hback : l.item? held = some item := (h.item_iff held item).mpr hheld
      have hpos := size_itemOf_pos hback
      cases hold : l.item? external with
      | none => grind [external?, item?]
      | some old =>
          have hback : l.external? old = some external := (h.item_iff external old).mp hold
          by_cases hsame : held = external
          · grind [external?, item?]
          · grind [external?, item?]

theorem OneToOne.insert (h : OneToOne l) (external item : UInt64) :
    OneToOne (l.insert external item).2 where
  item_iff e i := by rw [item?_insert_iff h, external?_insert_iff h, h.item_iff]
  size_eq := insert_size_eq h external item

/-! ## All rows of a file -/

theorem ofRows_concat (rows : List Link) (row : Link) :
    ofRows (rows ++ [row]) = ((ofRows rows).insert row.external row.item).2 :=
  List.foldl_append

theorem oneToOne_ofRows (rows : List Link) : OneToOne (ofRows rows) := by
  induction rows using List.reverseRecOn with
  | nil => exact oneToOne_empty
  | append_singleton rows row ih =>
      rw [ofRows_concat]
      exact ih.insert row.external row.item

theorem item?_ofRows_iff (rows : List Link) (external item : UInt64) :
    (ofRows rows).item? external = some item ↔ Standing rows external item := by
  induction rows using List.reverseRecOn with
  | nil => simp [ofRows, empty, item?, not_standing_nil]
  | append_singleton rows row ih =>
      rw [ofRows_concat, item?_insert_iff (oneToOne_ofRows rows), standing_concat, ih]

/-- Whatever rows a table has taken in, its two directions are inverse to each other
and of one size, and a pair is linked exactly if a row links it and no later row
touches either of its ids.  One more row gives back what its external id was linked
with.  The table of a text is that of its rows. -/
theorem linked_iff_standing (rows : List Link) :
    (∀ external item,
      ((ofRows rows).item? external = some item ↔
        (ofRows rows).external? item = some external) ∧
      ((ofRows rows).item? external = some item ↔ Standing rows external item) ∧
      ((ofRows rows).insert external item).1 = (ofRows rows).item? external) ∧
    (ofRows rows).itemOf.size = (ofRows rows).size ∧
    (ofRows rows).externalOf.size = (ofRows rows).size ∧
    ∀ text, ofText text = ofRows (Dataset.linksOf text) := by
  have h := oneToOne_ofRows rows
  refine ⟨fun external item => ⟨?_, ?_, ?_⟩, rfl, h.size_eq, fun _ => rfl⟩
  · exact h.item_iff external item
  · exact item?_ofRows_iff rows external item
  · exact insert_fst (ofRows rows) external item

end Matinee.Rating.Links
