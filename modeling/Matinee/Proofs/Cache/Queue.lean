/-
# `Matinee.Proofs.Cache.Queue` — callers that wait for a cache

Many calls share one cache.  A call waits until the lock is free, has the slot for
itself, and lets the lock go when it returns; in between it may wait for its fill, and
the others wait with it.  An event that cannot happen changes nothing, so any list of
events is a run, and every order in which the lock can be taken is that of one.

The invariant (`Kept`) says of the call that has the lock how far it has come with the
slot as it has found it, and of the calls that have returned that they are turns, each
explained by those before it.  So there is never more than one fill on its way, a call
fills exactly if nothing is current, and what it returns is current or comes from its
own fill (`calls_take_turns`).
-/
import Mathlib.Logic.Function.Basic
import Matinee.Proofs.Cache.Turns

namespace Matinee.Cache

/-- How far a call has come. -/
inductive Phase (ε α : Type) where
  | waiting
  | running (rest : Suspended (Except ε α) (Reply ε α × Cache α))
  | returned (r : Reply ε α)

/-- Calls on their way. -/
structure Queue (ε α : Type) where
  phase : Nat → Phase ε α
  /-- What the fills of the calls have ended with. -/
  outcome : Nat → Option (Except ε α)
  holder : Option Nat
  slot : Cache α
  /-- The calls that have returned, in the order in which they had the lock. -/
  turns : List (Turn ε α)

namespace Queue

variable {ε α : Type}

def start : Queue ε α := ⟨fun _ => .waiting, fun _ => none, none, none, []⟩

inductive Event (ε α : Type) where
  /-- A call takes the lock if it is free, or returns if it has nothing left to do. -/
  | go (i : Nat)
  /-- The fill of a call ends. -/
  | filled (i : Nat) (outcome : Except ε α)

/-- What an event does to some calls. -/
def step (uses : List Use) (Q : Queue ε α) : Event ε α → Queue ε α
  | .go i =>
    match uses[i]?, Q.phase i with
    | some u, .waiting =>
      match Q.holder with
      | none =>
        { Q with phase := Function.update Q.phase i (.running (u.begin Q.slot)), holder := some i }
      | some _ => Q
    | some u, .running (.done (r, slot)) =>
      { Q with
        phase := Function.update Q.phase i (.returned r)
        holder := none
        slot := slot
        turns := Q.turns ++ [⟨i, u, Q.outcome i, r⟩] }
    | _, _ => Q
  | .filled i o =>
    match Q.phase i with
    | .running (.fill next) =>
      { Q with
        phase := Function.update Q.phase i (.running (next o))
        outcome := Function.update Q.outcome i (some o) }
    | _ => Q

/-- The calls after some events. -/
def run (uses : List Use) (Q : Queue ε α) (events : List (Event ε α)) : Queue ε α :=
  events.foldl (step uses) Q

theorem run_append (uses : List Use) (Q : Queue ε α) (events more : List (Event ε α)) :
    run uses Q (events ++ more) = run uses (run uses Q events) more :=
  List.foldl_append

/-- The fill of a call is on its way. -/
def Filling (Q : Queue ε α) (i : Nat) : Prop := ∃ next, Q.phase i = .running (.fill next)

variable {uses : List Use} {Q Q' : Queue ε α} {i : Nat}

/-- What an event can do. -/
inductive Moves (uses : List Use) (Q : Queue ε α) : Queue ε α → Prop where
  | stay : Moves uses Q Q
  | enter {i : Nat} {u : Use} (huse : uses[i]? = some u) (hphase : Q.phase i = .waiting)
      (hfree : Q.holder = none) :
      Moves uses Q
        { Q with phase := Function.update Q.phase i (.running (u.begin Q.slot)), holder := some i }
  | filled {i : Nat} {o : Except ε α}
      {next : Except ε α → Suspended (Except ε α) (Reply ε α × Cache α)}
      (hphase : Q.phase i = .running (.fill next)) :
      Moves uses Q
        { Q with
          phase := Function.update Q.phase i (.running (next o))
          outcome := Function.update Q.outcome i (some o) }
  | leave {i : Nat} {u : Use} {r : Reply ε α} {slot : Cache α} (huse : uses[i]? = some u)
      (hphase : Q.phase i = .running (.done (r, slot))) :
      Moves uses Q
        { Q with
          phase := Function.update Q.phase i (.returned r)
          holder := none
          slot := slot
          turns := Q.turns ++ [⟨i, u, Q.outcome i, r⟩] }

theorem moves_step (uses : List Use) (Q : Queue ε α) (e : Event ε α) :
    Moves uses Q (step uses Q e) := by
  unfold step
  split
  · split
    · rename_i huse hphase
      split
      · rename_i hfree
        exact .enter huse hphase hfree
      · exact .stay
    · rename_i huse hphase
      exact .leave huse hphase
    · exact .stay
  · split
    · rename_i hphase
      exact .filled hphase
    · exact .stay

/-! ## What every run keeps -/

/-- How far a use has come that has found this slot. -/
inductive Inside (u : Use) (slot : Cache α) :
    Option (Except ε α) → Suspended (Except ε α) (Reply ε α × Cache α) → Prop where
  | begun : Inside u slot none (u.begin slot)
  | filled {next : Except ε α → Suspended (Except ε α) (Reply ε α × Cache α)} (o : Except ε α)
      (hnext : u.begin slot = .fill next) : Inside u slot (some o) (next o)

/-- What there is to know of a call in a phase. -/
def Knows (uses : List Use) (Q : Queue ε α) (i : Nat) : Phase ε α → Prop
  | .waiting => Q.outcome i = none
  | .running p => Q.holder = some i ∧ ∃ u, uses[i]? = some u ∧ Inside u Q.slot (Q.outcome i) p
  | .returned r => ∃ t ∈ Q.turns, t.call = i ∧ t.reply = r

/-- The invariant of all runs. -/
structure Kept (uses : List Use) (Q : Queue ε α) : Prop where
  call : ∀ i, Q.Knows uses i (Q.phase i)
  holder : ∀ i, Q.holder = some i → ∃ p, Q.phase i = .running p
  turn : ∀ t ∈ Q.turns, Q.phase t.call = .returned t.reply ∧ uses[t.call]? = some t.use
  nodup : (Q.turns.map Turn.call).Nodup
  slot : Holds Q.slot Q.turns
  explained : ∀ front t back, Q.turns = front ++ t :: back → Explained front t

theorem Inside.happens {u : Use} {slot slot' : Cache α} {o : Option (Except ε α)}
    {r : Reply ε α} (h : Inside u slot o (.done (r, slot'))) : Happens u slot o r slot' := by
  generalize hp : Suspended.done (r, slot') = p at h
  cases h with
  | begun => exact happens_of_begin hp.symm
  | filled o hnext =>
      obtain ⟨rfl, rfl, hall⟩ := happens_of_begin_fill hnext
      obtain ⟨r', slot'', hdone, hhappens⟩ := hall o
      rw [hdone] at hp
      cases hp
      exact hhappens

/-- Until its outcome is there, a fill is as far as the look at the slot. -/
theorem Inside.fill {u : Use} {slot : Cache α} {o : Option (Except ε α)}
    {next : Except ε α → Suspended (Except ε α) (Reply ε α × Cache α)}
    (h : Inside u slot o (.fill next)) : u.begin slot = .fill next := by
  generalize hp : Suspended.fill next = p at h
  cases h with
  | begun => rfl
  | filled o hnext =>
      obtain ⟨-, -, hall⟩ := happens_of_begin_fill hnext
      obtain ⟨r, slot', hdone, -⟩ := hall o
      rw [hdone] at hp
      cases hp

theorem kept_start (uses : List Use) : Kept uses (start : Queue ε α) where
  call := fun _ => rfl
  holder := nofun
  turn := fun _ h => absurd h List.not_mem_nil
  nodup := List.nodup_nil
  slot := holds_nil
  explained := fun front t back h =>
    absurd h.symm (List.append_ne_nil_of_right_ne_nil front (List.cons_ne_nil t back))

section Kept

variable {p : Suspended (Except ε α) (Reply ε α × Cache α)}

theorem Kept.running (h : Kept uses Q) (hphase : Q.phase i = .running p) :
    Q.holder = some i ∧ ∃ u, uses[i]? = some u ∧ Inside u Q.slot (Q.outcome i) p := by
  have hcall := h.call i
  rw [hphase] at hcall
  exact hcall

theorem Kept.not_running (h : Kept uses Q) (hfree : Q.holder = none) : Q.phase i ≠ .running p := by
  intro hphase
  rw [(h.running hphase).1] at hfree
  cases hfree

/-- Only the holder of the lock has begun and not returned. -/
theorem Kept.not_running_of_ne (h : Kept uses Q) (hphase : Q.phase i = .running p) {j : Nat}
    (hji : j ≠ i) (p' : Suspended (Except ε α) (Reply ε α × Cache α)) :
    Q.phase j ≠ .running p' := by
  intro hphase'
  have hholder := (h.running hphase').1
  rw [(h.running hphase).1, Option.some.injEq] at hholder
  exact hji hholder.symm

/-- What is known of the calls that wait and those that have returned stays, whatever the
call does that has its turn. -/
theorem Kept.call_of_others (h : Kept uses Q)
    (halone : ∀ j, j ≠ i → ∀ p, Q.phase j ≠ .running p)
    (hphase : ∀ j, j ≠ i → Q'.phase j = Q.phase j)
    (houtcome : ∀ j, j ≠ i → Q'.outcome j = Q.outcome j) (hturns : Q.turns ⊆ Q'.turns)
    (hi : Q'.Knows uses i (Q'.phase i)) : ∀ j, Q'.Knows uses j (Q'.phase j) := by
  intro j
  by_cases hji : j = i
  · exact hji ▸ hi
  · have hcall := h.call j
    rw [hphase j hji]
    cases hj : Q.phase j with
    | running p => exact absurd hj (halone j hji p)
    | waiting =>
        rw [hj] at hcall
        exact (houtcome j hji).trans hcall
    | returned r =>
        rw [hj] at hcall
        obtain ⟨t, ht, htj⟩ := hcall
        exact ⟨t, hturns ht, htj⟩

theorem Kept.call_ne (h : Kept uses Q) (hi : ∀ r, Q.phase i ≠ .returned r) :
    ∀ t ∈ Q.turns, t.call ≠ i := by
  rintro t ht rfl
  exact hi _ (h.turn t ht).1

theorem Kept.turn_of_others (h : Kept uses Q) (hi : ∀ r, Q.phase i ≠ .returned r)
    (hphase : ∀ j, j ≠ i → Q'.phase j = Q.phase j) :
    ∀ t ∈ Q.turns, Q'.phase t.call = .returned t.reply ∧ uses[t.call]? = some t.use := by
  intro t ht
  rw [hphase _ (h.call_ne hi t ht)]
  exact h.turn t ht

theorem Kept.enter (h : Kept uses Q) {u : Use} (huse : uses[i]? = some u)
    (hphase : Q.phase i = .waiting) (hfree : Q.holder = none) :
    Kept uses
      { Q with
        phase := Function.update Q.phase i (.running (u.begin Q.slot))
        holder := some i } := by
  have hothers : ∀ j, j ≠ i →
      Function.update Q.phase i (.running (u.begin Q.slot)) j = Q.phase j :=
    fun j hji => Function.update_of_ne hji _ _
  have hfresh : Q.outcome i = none := by
    have hcall := h.call i
    rw [hphase] at hcall
    exact hcall
  refine ⟨?_, ?_, ?_, h.nodup, h.slot, h.explained⟩
  · refine h.call_of_others (fun j _ p => h.not_running hfree) hothers (fun _ _ => rfl)
      (List.Subset.refl _) ?_
    dsimp only
    rw [Function.update_self]
    refine ⟨rfl, u, huse, ?_⟩
    dsimp only
    rw [hfresh]
    exact .begun
  · rintro j ⟨⟩
    exact ⟨_, Function.update_self _ _ _⟩
  · exact h.turn_of_others (by rw [hphase]; exact fun _ => nofun) hothers

theorem Kept.filled (h : Kept uses Q)
    {next : Except ε α → Suspended (Except ε α) (Reply ε α × Cache α)}
    (hphase : Q.phase i = .running (.fill next)) (o : Except ε α) :
    Kept uses
      { Q with
        phase := Function.update Q.phase i (.running (next o))
        outcome := Function.update Q.outcome i (some o) } := by
  have hothers : ∀ j, j ≠ i → Function.update Q.phase i (.running (next o)) j = Q.phase j :=
    fun j hji => Function.update_of_ne hji _ _
  obtain ⟨hholder, u, huse, hinside⟩ := h.running hphase
  refine ⟨?_, ?_, ?_, h.nodup, h.slot, h.explained⟩
  · refine h.call_of_others (fun j hji => h.not_running_of_ne hphase hji) hothers
      (fun j hji => Function.update_of_ne hji _ _) (List.Subset.refl _) ?_
    dsimp only
    rw [Function.update_self]
    refine ⟨hholder, u, huse, ?_⟩
    dsimp only
    rw [Function.update_self]
    exact .filled o hinside.fill
  · intro j hj
    obtain rfl : i = j := Option.some.inj (hholder.symm.trans hj)
    exact ⟨_, Function.update_self _ _ _⟩
  · exact h.turn_of_others (by rw [hphase]; exact fun _ => nofun) hothers

theorem Kept.leave (h : Kept uses Q) {u : Use} {r : Reply ε α} {slot : Cache α}
    (huse : uses[i]? = some u) (hphase : Q.phase i = .running (.done (r, slot))) :
    Kept uses
      { Q with
        phase := Function.update Q.phase i (.returned r)
        holder := none
        slot := slot
        turns := Q.turns ++ [⟨i, u, Q.outcome i, r⟩] } := by
  have hothers : ∀ j, j ≠ i → Function.update Q.phase i (.returned r) j = Q.phase j :=
    fun j hji => Function.update_of_ne hji _ _
  have hi : ∀ r, Q.phase i ≠ .returned r := by
    rw [hphase]
    exact fun _ => nofun
  obtain ⟨-, u', huse', hinside⟩ := h.running hphase
  obtain rfl : u = u' := Option.some.inj (huse.symm.trans huse')
  have hhappens := hinside.happens
  refine ⟨?_, nofun, ?_, ?_, h.slot.concat (t := ⟨i, u, Q.outcome i, r⟩) hhappens, ?_⟩
  · refine h.call_of_others (fun j hji => h.not_running_of_ne hphase hji) hothers
      (fun _ _ => rfl) (List.subset_append_left _ _) ?_
    dsimp only
    rw [Function.update_self]
    exact ⟨_, List.mem_append_right _ (List.mem_singleton.mpr rfl), rfl, rfl⟩
  · intro t ht
    rcases List.mem_append.mp ht with ht | ht
    · exact h.turn_of_others hi hothers t ht
    · rw [List.mem_singleton.mp ht]
      exact ⟨Function.update_self _ _ _, huse⟩
  · dsimp only
    rw [List.map_append, List.nodup_append]
    refine ⟨h.nodup, List.pairwise_singleton _ _, fun a ha b hb => ?_⟩
    obtain ⟨t, ht, rfl⟩ := List.mem_map.mp ha
    rw [List.mem_singleton.mp hb]
    exact h.call_ne hi t ht
  · intro front t back hturns
    rcases List.eq_nil_or_concat back with rfl | ⟨back, t', rfl⟩
    · obtain ⟨rfl, ht⟩ := List.append_inj' hturns rfl
      rw [← List.singleton_inj.mp ht]
      exact h.slot.explained hhappens
    · rw [List.concat_eq_append, ← List.cons_append, ← List.append_assoc] at hturns
      exact h.explained front t back (List.append_inj' hturns rfl).1

/-- What one step preserves. -/
theorem Kept.moves (h : Kept uses Q) (hmoves : Moves uses Q Q') : Kept uses Q' := by
  cases hmoves with
  | stay => exact h
  | enter huse hphase hfree => exact h.enter huse hphase hfree
  | @filled i o next hphase => exact h.filled hphase o
  | leave huse hphase => exact h.leave huse hphase

theorem Kept.run (h : Kept uses Q) (events : List (Event ε α)) : Kept uses (run uses Q events) := by
  induction events generalizing Q with
  | nil => exact h
  | cons e events ih => exact ih (h.moves (moves_step uses Q e))

/-! ## One fill at a time -/

theorem Kept.eq_of_filling (h : Kept uses Q) {j : Nat} (hi : Q.Filling i) (hj : Q.Filling j) :
    i = j := by
  obtain ⟨_, hi⟩ := hi
  obtain ⟨_, hj⟩ := hj
  by_contra hij
  exact h.not_running_of_ne hj hij _ hi

/-- Where a fill is on its way, there is nothing that it could be spared for. -/
theorem Kept.empty_of_filling (h : Kept uses Q) (hi : Q.Filling i) :
    uses[i]? = some .getOrFill ∧ ¬ Succeeded Q.turns := by
  obtain ⟨_, hi⟩ := hi
  obtain ⟨-, u, huse, hinside⟩ := h.running hi
  obtain ⟨rfl, hslot, -⟩ := happens_of_begin_fill hinside.fill
  exact ⟨huse, h.slot.eq_none_iff.mp hslot⟩

theorem Kept.returned_iff (h : Kept uses Q) {r : Reply ε α} :
    Q.phase i = .returned r ↔ ∃ t ∈ Q.turns, t.call = i ∧ t.reply = r := by
  constructor
  · intro hphase
    have hcall := h.call i
    rw [hphase] at hcall
    exact hcall
  · rintro ⟨t, ht, rfl, rfl⟩
    exact (h.turn t ht).1

/-! ## Going on to the end -/

/-- The fills that end in these events end as `f` says of their calls. -/
def EndAs (f : Nat → Except ε α) (events : List (Event ε α)) : Prop :=
  ∀ i o, Event.filled i o ∈ events → o = f i

theorem EndAs.append {f : Nat → Except ε α} {events more : List (Event ε α)}
    (h : EndAs f events) (h' : EndAs f more) : EndAs f (events ++ more) := fun i o ho =>
  (List.mem_append.mp ho).elim (h i o) (h' i o)

theorem endAs_go (f : Nat → Except ε α) (i : Nat) : EndAs f [.go i] := fun _ _ ho =>
  nomatch List.mem_singleton.mp ho

theorem endAs_filled (f : Nat → Except ε α) (i : Nat) : EndAs f [.filled i (f i)] := by
  intro j o ho
  cases List.mem_singleton.mp ho
  rfl

theorem step_done {u : Use} {r : Reply ε α} {slot : Cache α} (huse : uses[i]? = some u)
    (hphase : Q.phase i = .running (.done (r, slot))) :
    (step uses Q (.go i)).phase = Function.update Q.phase i (.returned r) ∧
      (step uses Q (.go i)).holder = none := by
  simp only [step, huse, hphase, and_self]

theorem Kept.exists_leave (h : Kept uses Q) (f : Nat → Except ε α)
    (hphase : Q.phase i = .running p) :
    ∃ events r, EndAs f events ∧
      (Queue.run uses Q events).phase = Function.update Q.phase i (.returned r) ∧
        (Queue.run uses Q events).holder = none := by
  obtain ⟨-, u, huse, hinside⟩ := h.running hphase
  cases p with
  | done a =>
      obtain ⟨r, slot⟩ := a
      exact ⟨[.go i], r, endAs_go f i, step_done huse hphase⟩
  | fill next =>
      obtain ⟨-, -, hall⟩ := happens_of_begin_fill hinside.fill
      obtain ⟨r, slot, hdone, -⟩ := hall (f i)
      have hstep : (step uses Q (.filled i (f i))).phase =
          Function.update Q.phase i (.running (.done (r, slot))) := by
        simp only [step, hphase, hdone]
      have hnext := step_done (Q := step uses Q (.filled i (f i))) huse
        (by rw [hstep, Function.update_self])
      rw [hstep, Function.update_idem] at hnext
      refine ⟨[.filled i (f i)] ++ [.go i], r, (endAs_filled f i).append (endAs_go f i), ?_⟩
      exact hnext

/-- Whatever the fills end with, all calls can return. -/
theorem Kept.exists_all_returned (h : Kept uses Q) (f : Nat → Except ε α) :
    ∃ events, EndAs f events ∧
      ∀ i < uses.length, ∃ r, (Queue.run uses Q events).phase i = .returned r := by
  have hbelow (k : Nat) (hk : k ≤ uses.length) : ∃ events, EndAs f events ∧
      (Queue.run uses Q events).holder = none ∧
        ∀ i < k, ∃ r, (Queue.run uses Q events).phase i = .returned r := by
    induction k with
    | zero =>
        cases hholder : Q.holder with
        | none => exact ⟨[], fun _ _ ho => (List.not_mem_nil ho).elim, hholder, nofun⟩
        | some i =>
            obtain ⟨p, hp⟩ := h.holder i hholder
            obtain ⟨events, r, hends, -, hfree⟩ := h.exists_leave f hp
            exact ⟨events, hends, hfree, nofun⟩
    | succ k ih =>
        obtain ⟨events, hends, hfree, hreturned⟩ := ih (by omega)
        have hkept := h.run events
        cases hphase : (Queue.run uses Q events).phase k with
        | running p => exact absurd hphase (hkept.not_running hfree)
        | returned r =>
            refine ⟨events, hends, hfree, fun i hi => ?_⟩
            rcases Nat.lt_succ_iff_lt_or_eq.mp hi with hi | rfl
            · exact hreturned i hi
            · exact ⟨r, hphase⟩
        | waiting =>
            have huse : uses[k]? = some uses[k] := List.getElem?_eq_getElem hk
            have hstep : (step uses (Queue.run uses Q events) (.go k)).phase =
                Function.update (Queue.run uses Q events).phase k
                  (.running (uses[k].begin (Queue.run uses Q events).slot)) := by
              simp only [step, huse, hphase, hfree]
            obtain ⟨more, r, hmore, hleave, hfree'⟩ :=
              (hkept.moves (moves_step uses _ (.go k))).exists_leave f
                (by rw [hstep, Function.update_self])
            rw [hstep, Function.update_idem] at hleave
            have hrun : Queue.run uses Q (events ++ .go k :: more) =
                Queue.run uses (step uses (Queue.run uses Q events) (.go k)) more :=
              run_append uses Q events (.go k :: more)
            refine ⟨events ++ .go k :: more, hends.append ((endAs_go f k).append hmore), ?_, ?_⟩
            · rw [hrun]
              exact hfree'
            · intro i hi
              rw [hrun, hleave]
              by_cases hik : i = k
              · exact ⟨r, by rw [hik, Function.update_self]⟩
              · rw [Function.update_of_ne hik]
                exact hreturned i (by omega)
  obtain ⟨events, hends, -, hreturned⟩ := hbelow uses.length (Nat.le_refl _)
  exact ⟨events, hends, hreturned⟩

end Kept

/-! ## All runs -/

/-- Some calls on a new cache, after some events. -/
def calls (uses : List Use) (events : List (Event ε α)) : Queue ε α := run uses start events

/-- In every order in which calls get the lock, and whatever their fills end with, there is
one fill at a time, and the slot and all replies are explained by the turns.  Of calls
in a row on an empty cache those up to the first success fill, and the others get its
value.  All calls can return. -/
theorem calls_take_turns (uses : List Use) (events : List (Event ε α)) :
    (∀ i j, (calls uses events).Filling i → (calls uses events).Filling j → i = j) ∧
      (∀ i, (calls uses events).Filling i →
        uses[i]? = some .getOrFill ∧ ¬ Succeeded (calls uses events).turns) ∧
      Holds (calls uses events).slot (calls uses events).turns ∧
      (∀ i r, (calls uses events).phase i = .returned r ↔
        ∃ t ∈ (calls uses events).turns, t.call = i ∧ t.reply = r) ∧
      ((calls uses events).turns.map Turn.call).Nodup ∧
      (∀ front t back, (calls uses events).turns = front ++ t :: back →
        uses[t.call]? = some t.use ∧ Explained front t) ∧
      (∀ front row back f k v, (calls uses events).turns = front ++ (row ++ back) →
        ¬ Succeeded front → (∀ t ∈ row, t.use = .getOrFill) → FirstSuccess f k v row →
          (row.filterMap Turn.outcome).length = min row.length (k + 1) ∧
            ∀ n t, row[n]? = some t → t.reply = .got (f (min n k)) ∧
              ((∃ o, t.outcome = some o) ↔ n ≤ k)) ∧
      (∀ f : Nat → Except ε α, ∃ more, EndAs f more ∧ ∀ i < uses.length,
        ∃ r, (calls uses (events ++ more)).phase i = .returned r) := by
  have hkept : Kept uses (calls uses events) := (kept_start uses).run events
  refine ⟨fun i j => hkept.eq_of_filling, fun i => hkept.empty_of_filling, hkept.slot,
    fun i r => hkept.returned_iff, hkept.nodup, ?_, ?_, ?_⟩
  · intro front t back hturns
    have ht := hkept.turn t (hturns ▸ List.mem_append_right _ List.mem_cons_self)
    exact ⟨ht.2, hkept.explained front t back hturns⟩
  · intro front row back f k v hturns hempty huse hf
    have hrow : Row f k v front row := by
      refine row_of_firstSuccess hempty (fun before t after hsplit => ?_) huse hf
      refine hkept.explained _ t (after ++ back) ?_
      rw [hturns, hsplit, List.append_assoc, List.append_assoc, List.cons_append]
    exact ⟨hrow.fills, hrow.replies⟩
  · intro f
    obtain ⟨more, hends, hreturned⟩ := hkept.exists_all_returned f
    refine ⟨more, hends, ?_⟩
    rw [calls, run_append]
    exact hreturned

/-- The first of three calls fails to fill; the second one, which had to wait for it, fills
for itself and for the third. -/
theorem calls_take_turns_three :
    ((calls [.getOrFill, .getOrFill, .getOrFill]
      [.go 0, .go 1, .filled 0 (.error "offline"), .go 0, .go 1, .go 2, .filled 1 (.ok 7), .go 1,
        .go 2, .go 2] : Queue String Nat).turns.filterMap Turn.outcome).length = min 3 (1 + 1) ∧
      ∀ n t, (calls [.getOrFill, .getOrFill, .getOrFill]
        [.go 0, .go 1, .filled 0 (.error "offline"), .go 0, .go 1, .go 2, .filled 1 (.ok 7), .go 1,
          .go 2, .go 2] : Queue String Nat).turns[n]? = some t →
        t.reply = .got (if min n 1 = 0 then .error "offline" else .ok 7) ∧
          ((∃ o, t.outcome = some o) ↔ n ≤ 1) := by
  refine (calls_take_turns [.getOrFill, .getOrFill, .getOrFill]
    [.go 0, .go 1, .filled 0 (.error "offline"), .go 0, .go 1, .go 2, .filled 1 (.ok 7), .go 1,
      .go 2, .go 2]).2.2.2.2.2.2.1 [] _ []
    (fun n => if n = 0 then .error "offline" else .ok 7) 1 7 ?_ not_since_nil ?_ ?_
  · rw [List.append_nil, List.nil_append]
  · exact List.forall_mem_cons.mpr ⟨rfl, List.forall_mem_cons.mpr ⟨rfl,
      List.forall_mem_cons.mpr ⟨rfl, List.forall_mem_nil _⟩⟩⟩
  · refine ⟨fun n o ho => ?_, fun n hn => ?_, rfl⟩
    · match n, ho with
      | 0, ho => exact (Option.some.inj ho).symm
      | 1, ho => exact (Option.some.inj ho).symm
    · obtain rfl : n = 0 := by omega
      exact ⟨"offline", rfl⟩

end Queue

end Matinee.Cache
