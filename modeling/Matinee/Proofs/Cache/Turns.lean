/-
# `Matinee.Proofs.Cache.Turns` — what a cache does, by what has happened to it

The uses of a cache take turns.  A turn depends on the slot alone, and there are few
things that it can be (`Happens`).  But the slot is nothing that a caller sees; what
callers know is which turns there have been.  `Current` reads the slot off the turns:
it is the value of the last fill that has succeeded, if no invalidation came after it.
With that, each turn is explained by those in front of it (`Explained`).

A row of calls on an empty cache is a special case (`replies_of_row`): until a fill
succeeds each of them fills, and none does after that.
-/
import Mathlib.Data.List.Induction
import Matinee.Cache

namespace Matinee.Cache

/-! ## Uses -/

/-- What can be done with a cache. -/
inductive Use where
  | getOrFill
  | peek
  | invalidate
deriving DecidableEq, Repr

inductive Reply (ε α : Type) where
  | got (r : Except ε α)
  | seen (o : Option α)
  | dropped

/-- A computation that has to wait for the outcomes of fills. -/
inductive Suspended (ο α : Type) : Type where
  | done (a : α)
  | fill (next : ο → Suspended ο α)

namespace Suspended

def bind {ο α β : Type} : Suspended ο α → (α → Suspended ο β) → Suspended ο β
  | .done a, f => f a
  | .fill next, f => .fill fun o => (next o).bind f

instance {ο : Type} : Monad (Suspended ο) where
  pure := .done
  bind := bind

end Suspended

variable {ε α : Type}

/-- What a use does as long as it has the slot for itself. -/
def Use.program : Use → StateT (Cache α) (Suspended (Except ε α)) (Reply ε α)
  | .getOrFill => do return .got (← Cache.getOrFill (.fill .done))
  | .peek => do return .seen (← Cache.peek)
  | .invalidate => do
    Cache.invalidate
    return .dropped

/-- A use that finds this slot. -/
def Use.begin (u : Use) (slot : Cache α) : Suspended (Except ε α) (Reply ε α × Cache α) :=
  u.program.run slot

/-- What a use can make of a slot: the outcome of its fill, if it runs one, its reply, and
the slot behind it. -/
inductive Happens : Use → Cache α → Option (Except ε α) → Reply ε α → Cache α → Prop where
  | kept (v : α) : Happens .getOrFill (some v) none (.got (.ok v)) (some v)
  | filled (v : α) : Happens .getOrFill none (some (.ok v)) (.got (.ok v)) (some v)
  | failed (e : ε) : Happens .getOrFill none (some (.error e)) (.got (.error e)) none
  | seen (slot : Cache α) : Happens .peek slot none (.seen slot) slot
  | dropped (slot : Cache α) : Happens .invalidate slot none .dropped none

variable {u : Use} {slot slot' : Cache α} {r : Reply ε α}

theorem happens_of_begin (h : u.begin slot = .done (r, slot')) : Happens u slot none r slot' := by
  cases u with
  | getOrFill =>
      cases slot with
      | none => cases h
      | some v =>
          cases h
          exact .kept v
  | peek =>
      cases h
      exact .seen slot
  | invalidate =>
      cases h
      exact .dropped slot

/-- A fill is run by nothing but a look at an empty slot, and its outcome decides. -/
theorem happens_of_begin_fill {next : Except ε α → Suspended (Except ε α) (Reply ε α × Cache α)}
    (h : u.begin slot = .fill next) :
    u = .getOrFill ∧ slot = none ∧
      ∀ o, ∃ r slot', next o = .done (r, slot') ∧ Happens .getOrFill none (some o) r slot' := by
  cases u with
  | peek => cases h
  | invalidate => cases h
  | getOrFill =>
      cases slot with
      | some v => cases h
      | none =>
          cases h
          refine ⟨rfl, rfl, fun o => ?_⟩
          cases o with
          | ok v => exact ⟨_, _, rfl, .filled v⟩
          | error e => exact ⟨_, _, rfl, .failed e⟩

/-! ## Since -/

/-- There is a `P` in the list, and only `Q` behind it. -/
def Since {τ : Type} (P Q : τ → Prop) (xs : List τ) : Prop :=
  ∃ front x back, xs = front ++ x :: back ∧ P x ∧ ∀ y ∈ back, Q y

theorem not_since_nil {τ : Type} {P Q : τ → Prop} : ¬ Since P Q [] := by
  rintro ⟨front, x, back, h, -⟩
  exact List.append_ne_nil_of_right_ne_nil front (List.cons_ne_nil x back) h.symm

theorem since_concat {τ : Type} {P Q : τ → Prop} {xs : List τ} {x : τ} :
    Since P Q (xs ++ [x]) ↔ P x ∨ Since P Q xs ∧ Q x := by
  constructor
  · rintro ⟨front, y, back, h, hy, hback⟩
    rcases List.eq_nil_or_concat back with rfl | ⟨back, z, rfl⟩
    · obtain ⟨-, hxy⟩ := List.append_inj' h rfl
      exact Or.inl (List.singleton_inj.mp hxy ▸ hy)
    · rw [List.concat_eq_append] at h hback
      rw [← List.cons_append, ← List.append_assoc] at h
      obtain ⟨rfl, hxz⟩ := List.append_inj' h rfl
      obtain rfl := List.singleton_inj.mp hxz
      refine Or.inr ⟨⟨front, y, back, rfl, hy, fun w hw => ?_⟩, ?_⟩
      · exact hback w (List.mem_append_left _ hw)
      · exact hback x (List.mem_append_right _ (List.mem_singleton.mpr rfl))
  · rintro (hx | ⟨⟨front, y, back, rfl, hy, hback⟩, hx⟩)
    · exact ⟨xs, x, [], rfl, hx, fun _ h => absurd h List.not_mem_nil⟩
    · refine ⟨front, y, back ++ [x], by simp, hy, fun w hw => ?_⟩
      rcases List.mem_append.mp hw with hw | hw
      · exact hback w hw
      · exact List.mem_singleton.mp hw ▸ hx

/-! ## Turns -/

/-- A use that is over. -/
structure Turn (ε α : Type) where
  call : Nat
  use : Use
  /-- What the fill ended with, if one was run. -/
  outcome : Option (Except ε α)
  reply : Reply ε α

/-- A fill has succeeded since the last invalidation. -/
def Succeeded (turns : List (Turn ε α)) : Prop :=
  Since (fun t => ∃ v, t.outcome = some (.ok v)) (fun t => t.use ≠ .invalidate) turns

/-- The last fill that succeeded had this value, and no invalidation came after it. -/
def Current (turns : List (Turn ε α)) (v : α) : Prop :=
  Since (fun t => t.outcome = some (.ok v))
    (fun t => t.use ≠ .invalidate ∧ ∀ w, t.outcome ≠ some (.ok w)) turns

/-- The slot holds what is current behind the turns. -/
def Holds (slot : Cache α) (turns : List (Turn ε α)) : Prop := ∀ v, slot = some v ↔ Current turns v

/-- A turn, by the turns in front of it. -/
structure Explained (front : List (Turn ε α)) (t : Turn ε α) : Prop where
  fills_iff : (∃ o, t.outcome = some o) ↔ t.use = .getOrFill ∧ ¬ Succeeded front
  got : t.use = .getOrFill → ∃ r, t.reply = .got r
  ok_iff : ∀ v, t.reply = .got (.ok v) ↔
    t.use = .getOrFill ∧ (t.outcome = some (.ok v) ∨ Current front v)
  error : ∀ e, t.reply = .got (.error e) →
    t.outcome = some (.error e) ∧ ¬ Succeeded (front ++ [t])
  seen : t.use = .peek → ∃ o, t.reply = .seen o ∧ ∀ v, o = some v ↔ Current front v

variable {front turns : List (Turn ε α)} {t : Turn ε α}

theorem succeeded_iff : Succeeded turns ↔ ∃ v, Current turns v := by
  induction turns using List.reverseRecOn with
  | nil => exact iff_of_false not_since_nil fun ⟨_, h⟩ => not_since_nil h
  | append_singleton turns t ih =>
      rw [Succeeded] at ih ⊢
      simp only [Current, since_concat] at ih ⊢
      rw [ih]
      constructor
      · rintro (hv | ⟨⟨v, hv⟩, ht⟩)
        · exact hv.imp fun _ => Or.inl
        · by_cases hnew : ∃ w, t.outcome = some (.ok w)
          · exact hnew.imp fun _ => Or.inl
          · exact ⟨v, Or.inr ⟨hv, ht, fun w hw => hnew ⟨w, hw⟩⟩⟩
      · rintro ⟨v, hv | ⟨hv, ht, -⟩⟩
        · exact Or.inl ⟨v, hv⟩
        · exact Or.inr ⟨⟨v, hv⟩, ht⟩

theorem holds_nil : Holds (none : Cache α) ([] : List (Turn ε α)) := fun _ =>
  iff_of_false nofun not_since_nil

theorem Holds.eq_none_iff (h : Holds slot turns) : slot = none ↔ ¬ Succeeded turns := by
  rw [succeeded_iff]
  constructor
  · rintro rfl ⟨v, hv⟩
    cases (h v).mpr hv
  · intro hnone
    cases slot with
    | none => rfl
    | some v => exact absurd ⟨v, (h v).mp rfl⟩ hnone

theorem Holds.concat (hslot : Holds slot front) (h : Happens t.use slot t.outcome t.reply slot') :
    Holds slot' (front ++ [t]) := by
  intro v
  rw [Current, since_concat]
  change slot' = some v ↔ _ ∨ Current front v ∧ _
  rw [← hslot v]
  obtain ⟨i, u, o, r⟩ := t
  dsimp only at h ⊢
  cases h <;> simp

theorem Holds.explained (hslot : Holds slot front)
    (h : Happens t.use slot t.outcome t.reply slot') : Explained front t := by
  have hnext := (hslot.concat h).eq_none_iff
  have hempty := hslot.eq_none_iff
  obtain ⟨i, u, o, r⟩ := t
  dsimp only at h
  refine ⟨?_, ?_, ?_, ?_, ?_⟩
  · rw [← hempty]
    cases h <;> simp
  · cases h <;> simp
  · intro v
    rw [← hslot v]
    cases h <;> simp
  · intro e hreply
    dsimp only at hreply
    refine ⟨?_, hnext.mp ?_⟩ <;> cases h <;> simp_all
  · intro hpeek
    simp only [← hslot _]
    cases h <;> simp_all

theorem Explained.reply_of_outcome (h : Explained front t) {o : Except ε α}
    (ho : t.outcome = some o) : t.reply = .got o := by
  obtain ⟨huse, hempty⟩ := h.fills_iff.mp ⟨o, ho⟩
  obtain ⟨r, hr⟩ := h.got huse
  cases r with
  | ok v =>
      rcases (h.ok_iff v).mp hr with ⟨-, hv | hv⟩
      · rw [hr, Option.some.inj (ho.symm.trans hv)]
      · exact absurd (succeeded_iff.mpr ⟨v, hv⟩) hempty
  | error e => rw [hr, Option.some.inj (ho.symm.trans (h.error e hr).1)]

/-- Nothing is filled while there is a value, and the value is the reply. -/
theorem Explained.of_current (h : Explained front t) (huse : t.use = .getOrFill) {v : α}
    (hv : Current front v) : t.outcome = none ∧ t.reply = .got (.ok v) := by
  refine ⟨?_, (h.ok_iff v).mpr ⟨huse, Or.inr hv⟩⟩
  rw [Option.eq_none_iff_forall_ne_some]
  intro o ho
  exact (h.fills_iff.mp ⟨o, ho⟩).2 (succeeded_iff.mpr ⟨v, hv⟩)

/-! ## Calls in a row -/

/-- The fills of some turns end as `f` says, in the order in which they are run, and the
first of them to succeed is the one with the number `k`. -/
structure FirstSuccess (f : Nat → Except ε α) (k : Nat) (v : α) (row : List (Turn ε α)) : Prop where
  outcome : ∀ n o, (row.filterMap Turn.outcome)[n]? = some o → o = f n
  failure : ∀ n < k, ∃ e, f n = .error e
  success : f k = .ok v

/-- What a row of calls behind `front` has come to. -/
structure Row (f : Nat → Except ε α) (k : Nat) (v : α) (front row : List (Turn ε α)) : Prop where
  fills : (row.filterMap Turn.outcome).length = min row.length (k + 1)
  empty : row.length ≤ k → ¬ Succeeded (front ++ row)
  current : k < row.length → Current (front ++ row) v
  replies : ∀ n t, row[n]? = some t → t.reply = .got (f (min n k)) ∧
    ((∃ o, t.outcome = some o) ↔ n ≤ k)

section Row

variable {f : Nat → Except ε α} {k : Nat} {v : α} {row : List (Turn ε α)}

theorem FirstSuccess.of_concat (h : FirstSuccess f k v (row ++ [t])) : FirstSuccess f k v row where
  outcome := fun n o ho => by
    refine h.outcome n o ?_
    rw [List.filterMap_append, List.getElem?_append_left (List.getElem?_eq_some_iff.mp ho).1]
    exact ho
  failure := h.failure
  success := h.success

theorem Row.replies_concat (h : Row f k v front row)
    (ht : t.reply = .got (f (min row.length k)) ∧ ((∃ o, t.outcome = some o) ↔ row.length ≤ k)) :
    ∀ n u, (row ++ [t])[n]? = some u → u.reply = .got (f (min n k)) ∧
      ((∃ o, u.outcome = some o) ↔ n ≤ k) := by
  intro n u hu
  rcases Nat.lt_trichotomy n row.length with hn | rfl | hn
  · rw [List.getElem?_append_left hn] at hu
    exact h.replies n u hu
  · rw [List.getElem?_concat_length] at hu
    exact Option.some.inj hu ▸ ht
  · rw [List.getElem?_eq_none (by rw [List.length_append, List.length_singleton]; omega)] at hu
    cases hu

/-- Up to the first success each call fills. -/
theorem Row.concat_of_le (h : Row f k v front row) (ht : Explained (front ++ row) t)
    (huse : t.use = .getOrFill) (hf : FirstSuccess f k v (row ++ [t])) (hk : row.length ≤ k) :
    Row f k v front (row ++ [t]) := by
  obtain ⟨o, ho⟩ := ht.fills_iff.mpr ⟨huse, h.empty hk⟩
  have hfills : (row.filterMap Turn.outcome).length = row.length := by
    rw [h.fills]
    omega
  have hrow : (row ++ [t]).filterMap Turn.outcome = row.filterMap Turn.outcome ++ [o] := by
    simp [ho]
  obtain rfl : o = f row.length := by
    refine hf.outcome _ _ ?_
    rw [hrow, ← hfills, List.getElem?_concat_length]
  have hreply := ht.reply_of_outcome ho
  refine ⟨?_, ?_, ?_, h.replies_concat ⟨?_, iff_of_true ⟨_, ho⟩ hk⟩⟩
  · rw [hrow, List.length_append, List.length_append, hfills, List.length_singleton,
      List.length_singleton]
    omega
  · intro hlength
    rw [List.length_append, List.length_singleton] at hlength
    obtain ⟨e, he⟩ := hf.failure row.length hlength
    rw [he] at hreply
    rw [← List.append_assoc]
    exact (ht.error e hreply).2
  · intro hlength
    rw [List.length_append, List.length_singleton] at hlength
    obtain rfl : row.length = k := by omega
    rw [← List.append_assoc, Current, since_concat]
    exact Or.inl (ho.trans (congrArg some hf.success))
  · rw [Nat.min_eq_left hk]
    exact hreply

/-- Behind it each call has its value. -/
theorem Row.concat_of_lt (h : Row f k v front row) (ht : Explained (front ++ row) t)
    (huse : t.use = .getOrFill) (hf : FirstSuccess f k v (row ++ [t])) (hk : k < row.length) :
    Row f k v front (row ++ [t]) := by
  obtain ⟨hnone, hreply⟩ := ht.of_current huse (h.current hk)
  have hrow : (row ++ [t]).filterMap Turn.outcome = row.filterMap Turn.outcome := by
    simp [hnone]
  refine ⟨?_, ?_, ?_, h.replies_concat ⟨?_, ?_⟩⟩
  · rw [hrow, h.fills, List.length_append, List.length_singleton]
    omega
  · intro hlength
    rw [List.length_append, List.length_singleton] at hlength
    omega
  · intro _
    rw [← List.append_assoc, Current, since_concat]
    refine Or.inr ⟨h.current hk, ?_, ?_⟩
    · rw [huse]
      exact nofun
    · rw [hnone]
      exact fun _ => nofun
  · rw [Nat.min_eq_right (Nat.le_of_lt hk), hf.success]
    exact hreply
  · rw [hnone]
    exact iff_of_false nofun (Nat.not_le.mpr hk)

theorem row_of_firstSuccess (hempty : ¬ Succeeded front)
    (hexplained : ∀ before t after, row = before ++ t :: after → Explained (front ++ before) t)
    (huse : ∀ t ∈ row, t.use = .getOrFill) (hf : FirstSuccess f k v row) :
    Row f k v front row := by
  induction row using List.reverseRecOn with
  | nil =>
      refine ⟨by simp, fun _ => ?_, nofun, nofun⟩
      rwa [List.append_nil]
  | append_singleton row t ih =>
      have hrow := ih
        (fun before u after h => hexplained before u (after ++ [t]) (by simp [h]))
        (fun u hu => huse u (List.mem_append_left _ hu)) hf.of_concat
      have ht := hexplained row t [] rfl
      have hget := huse t (List.mem_append_right _ (List.mem_singleton.mpr rfl))
      rcases Nat.lt_or_ge k row.length with hk | hk
      · exact hrow.concat_of_lt ht hget hf hk
      · exact hrow.concat_of_le ht hget hf hk

end Row

end Matinee.Cache
