/-
# `Matinee.Proofs.Store.Serial` — tasks that keep to a lock

A task keeps to a lock if it holds the lock and changes the store with its last
call at most, or takes no lock and makes a single call that changes nothing.
However such tasks interleave, those that hold the lock might as well have run
one after the other in the order in which they took it, and the others between
two of them (`serial_run`).

The invariant (`Kept`) knows the store at which the holder of the lock has begun:
from there the whole task does what is left of it does now, and until its last
call that store is still there.
-/
import Mathlib.Data.List.Infix
import Matinee.Proofs.Store.Runs

namespace Matinee.Store

/-! ## The discipline -/

/-- A call that leaves every store as it is. -/
def Call.IsRead (c : Call) : Prop := ∀ s, (answer c s).2 = s

theorem Call.isRead_get (key : String) : (Call.get key).IsRead := fun _ => rfl

/-- Only the last call may change the store. -/
inductive Program.ChangesLast : Program α → Prop where
  | done (a : α) : ChangesLast (.done a)
  | last {c : Call} {next : Except Failure c.Answer → Program α}
      (hnext : ∀ r, ∃ a, next r = .done a) : ChangesLast (.call c next)
  | read {c : Call} {next : Except Failure c.Answer → Program α} (hread : c.IsRead)
      (hnext : ∀ r, ChangesLast (next r)) : ChangesLast (.call c next)

/-- There is one call, and it changes nothing. -/
inductive Program.Looks : Program α → Prop where
  | once {c : Call} {next : Except Failure c.Answer → Program α} (hread : c.IsRead)
      (hnext : ∀ r, ∃ a, next r = .done a) : Looks (.call c next)

def Task.KeepsTo (l : κ) (t : Task κ α) : Prop :=
  t.guard = some l ∧ t.program.ChangesLast ∨ t.guard = none ∧ t.program.Looks

/-! ## Tasks at some positions -/

section Positions

variable {κ α : Type}

def programsAt (tasks : List (Task κ α)) (is : List Nat) : List (Program α) :=
  is.filterMap fun i => tasks[i]?.map Task.program

/-- The store behind the tasks at some positions, one after the other. -/
def storeAfter (tasks : List (Task κ α)) (s : Contents) (is : List Nat) : Contents :=
  (runAll (programsAt tasks is) s).2

/-- What they return. -/
def repliesOf (tasks : List (Task κ α)) (s : Contents) (is : List Nat) : List α :=
  (runAll (programsAt tasks is) s).1

variable {tasks : List (Task κ α)} {i : Nat} {t : Task κ α}

theorem runAll_concat (h : tasks[i]? = some t) (s : Contents) (is : List Nat) :
    runAll (programsAt tasks (is ++ [i])) s =
      (repliesOf tasks s is ++ [(t.program.alone (storeAfter tasks s is)).1],
        (t.program.alone (storeAfter tasks s is)).2) := by
  have hone : programsAt tasks (is ++ [i]) = programsAt tasks is ++ [t.program] := by
    simp [programsAt, h]
  rw [hone, runAll_append]
  rfl

theorem storeAfter_concat (h : tasks[i]? = some t) (s : Contents) (is : List Nat) :
    storeAfter tasks s (is ++ [i]) = (t.program.alone (storeAfter tasks s is)).2 := by
  rw [storeAfter, runAll_concat h]

theorem repliesOf_concat (h : tasks[i]? = some t) (s : Contents) (is : List Nat) :
    repliesOf tasks s (is ++ [i]) =
      repliesOf tasks s is ++ [(t.program.alone (storeAfter tasks s is)).1] := by
  rw [repliesOf, runAll_concat h]

end Positions

namespace System

variable {κ α : Type} {S S' : System κ α} {i : Nat}

/-! ## Results and landings -/

theorem result?_eq_some_iff {a : α} : S.result? i = some a ↔ S.phase i = .returned a := by
  unfold result?
  split
  · rename_i b hphase
    rw [hphase, Option.some.injEq, Phase.returned.injEq]
  · rename_i hphase
    exact ⟨(nomatch ·), fun h => absurd h (hphase a)⟩

theorem update_of_not_mem {is : List Nat} (h : i ∉ is) (x : Phase α) :
    ∀ j ∈ is, Function.update S.phase i x j = S.phase j := fun _ hj =>
  Function.update_of_ne (ne_of_mem_of_not_mem hj h) _ _

theorem landed_congr (horder : S'.order = S.order) (h : ∀ j ∈ S.order, S'.phase j = S.phase j) :
    S'.landed = S.landed := by
  rw [landed, landed, horder]
  exact List.filter_congr fun j hj => by rw [h j hj]

theorem landed_update (h : i ∉ S.order) (x : Phase α) (holder : κ → Option Nat) (s : Contents) :
    landed ⟨Function.update S.phase i x, holder, s, S.order⟩ = S.landed :=
  landed_congr rfl (update_of_not_mem h x)

/-- The tasks at these positions have returned, each what it returns behind those
before it. -/
def Settled (tasks : List (Task κ α)) (s : Contents) (S : System κ α) (is : List Nat) : Prop :=
  ∀ front i, front ++ [i] <+: is → ∃ t, tasks[i]? = some t ∧
    S.phase i = .returned (t.program.alone (storeAfter tasks s front)).1

section Settled

variable {tasks : List (Task κ α)} {s : Contents} {is : List Nat}

theorem settled_nil : Settled tasks s S [] := fun front i h =>
  absurd (List.prefix_nil.mp h) (List.append_ne_nil_of_right_ne_nil front (List.cons_ne_nil i []))

theorem Settled.concat (h : Settled tasks s S is) {t : Task κ α} (htask : tasks[i]? = some t)
    (hi : S.phase i = .returned (t.program.alone (storeAfter tasks s is)).1) :
    Settled tasks s S (is ++ [i]) := by
  intro front j hj
  rcases List.prefix_concat_iff.mp hj with heq | hprefix
  · obtain ⟨rfl, hji⟩ := List.append_inj' heq rfl
    obtain rfl := List.singleton_inj.mp hji
    exact ⟨t, htask, hi⟩
  · exact h front j hprefix

theorem Settled.congr (h : Settled tasks s S is) (hphase : ∀ j ∈ is, S'.phase j = S.phase j) :
    Settled tasks s S' is := by
  intro front i hi
  rw [hphase i (hi.subset (by simp))]
  exact h front i hi

theorem Settled.returned (h : Settled tasks s S is) {j : Nat} (hj : j ∈ is) :
    ∃ a, S.phase j = .returned a := by
  obtain ⟨front, back, rfl⟩ := List.append_of_mem hj
  obtain ⟨t, -, ht⟩ := h front j ⟨back, by simp⟩
  exact ⟨_, ht⟩

theorem Settled.filter (h : Settled tasks s S is) :
    is.filter (fun j => !(S.phase j).isPending) = is :=
  List.filter_eq_self.mpr fun j hj => by
    obtain ⟨a, ha⟩ := h.returned hj
    rw [ha]
    rfl

theorem Settled.results (h : Settled tasks s S is) :
    is.map S.result? = (repliesOf tasks s is).map some := by
  induction is using List.reverseRecOn with
  | nil => rfl
  | append_singleton is i ih =>
      obtain ⟨t, htask, hi⟩ := h is i (List.prefix_refl _)
      rw [List.map_append, ih fun front j hj => h front j (hj.trans (List.prefix_append is [i])),
        repliesOf_concat htask, List.map_append, List.map_singleton, result?_eq_some_iff.mpr hi]
      rfl

end Settled

/-! ## The invariant -/

section Invariant

variable (tasks : List (Task κ α)) (l : κ) (s : Contents)

/-- Nobody holds the lock, and all who held it have returned. -/
structure Free (S : System κ α) : Prop where
  holder : S.holder l = none
  settled : Settled tasks s S S.order
  store : S.store = storeAfter tasks s S.order

/-- The task `i` holds the lock and has `p` left to do; those before it have
returned. -/
structure Held (S : System κ α) (i : Nat) (front : List Nat) (t : Task κ α) (p : Program α) :
    Prop where
  holder : S.holder l = some i
  order : S.order = front ++ [i]
  settled : Settled tasks s S front
  task : tasks[i]? = some t
  guard : t.guard = some l
  phase : S.phase i = .running p
  late : p.ChangesLast
  alone : p.alone S.store = t.program.alone (storeAfter tasks s front)
  untouched : (S.phase i).isPending = true → S.store = storeAfter tasks s front

/-- The task has found, or will find, the store behind some of those that have
landed, those at `base` among them. -/
inductive Sees (base : List Nat) (t : Task κ α) (S : System κ α) (i : Nat) : Prop where
  | waiting (hphase : S.phase i = .waiting)
  | before (hphase : S.phase i = .running t.program)
  | found {a : α} {front : List Nat}
      (hphase : S.phase i = .running (.done a) ∨ S.phase i = .returned a)
      (hbase : base <+: front) (hfront : front <+: S.landed)
      (hreply : a = (t.program.alone (storeAfter tasks s front)).1)

/-- What holds of every state; `since` are the landings before a task began. -/
structure Kept (since : Nat → List Nat) (S : System κ α) : Prop where
  nodup : S.order.Nodup
  begun : ∀ i, S.phase i ≠ .waiting → ∃ t, tasks[i]? = some t ∧ (t.guard = some l ↔ i ∈ S.order)
  lock : Free tasks l s S ∨ ∃ i front t p, Held tasks l s S i front t p
  landed : ∀ i, since i <+: S.landed
  sees : ∀ i t, tasks[i]? = some t → t.guard = none → Sees tasks s (since i) t S i

end Invariant

variable {tasks : List (Task κ α)} {l : κ} {s : Contents} {since : Nat → List Nat}
variable {front : List Nat} {t : Task κ α} {p : Program α}

theorem Free.landed (h : Free tasks l s S) : S.landed = S.order := h.settled.filter

theorem Held.landed (h : Held tasks l s S i front t p) :
    S.landed = if (S.phase i).isPending then front else front ++ [i] := by
  rw [System.landed, h.order, List.filter_append, h.settled.filter]
  cases hpending : (S.phase i).isPending <;> simp [hpending]

theorem Held.not_mem (h : Held tasks l s S i front t p) (hnodup : S.order.Nodup) : i ∉ front := by
  rw [h.order, List.nodup_append] at hnodup
  exact fun hmem => hnodup.2.2 i hmem i (List.mem_singleton.mpr rfl) rfl

theorem Held.prefix_landed (h : Held tasks l s S i front t p) : front <+: S.landed := by
  rw [h.landed]
  split
  · exact List.prefix_refl front
  · exact List.prefix_append front [i]

theorem Free.congr (h : Free tasks l s S) (hholder : S'.holder l = S.holder l)
    (horder : S'.order = S.order) (hstore : S'.store = S.store)
    (hphase : ∀ j ∈ S.order, S'.phase j = S.phase j) : Free tasks l s S' where
  holder := hholder.trans h.holder
  settled := horder ▸ h.settled.congr hphase
  store := by rw [hstore, horder, h.store]

theorem Held.congr (h : Held tasks l s S i front t p) (hholder : S'.holder l = S.holder l)
    (horder : S'.order = S.order) (hstore : S'.store = S.store)
    (hphase : ∀ j ∈ S.order, S'.phase j = S.phase j) : Held tasks l s S' i front t p := by
  have hi : S'.phase i = S.phase i := hphase i (by simp [h.order])
  have hfront := h.settled.congr fun j hj => hphase j (by simp [h.order, hj])
  refine ⟨hholder.trans h.holder, horder.trans h.order, hfront, h.task, h.guard, hi.trans h.phase,
    h.late, ?_, ?_⟩
  · rw [hstore, h.alone]
  · rw [hi, hstore]
    exact h.untouched

theorem Sees.mono {base : List Nat} (h : Sees tasks s base t S i) (hphase : S'.phase i = S.phase i)
    (hlanded : S.landed <+: S'.landed) : Sees tasks s base t S' i := by
  cases h with
  | waiting h => exact .waiting (hphase.trans h)
  | before h => exact .before (hphase.trans h)
  | found h hbase hfront hreply =>
      exact .found (by rwa [hphase]) hbase (hfront.trans hlanded) hreply

/-- One step of the task `i` keeps the invariant, if it does so with what concerns
`i` and with the lock. -/
theorem Kept.frame (h : Kept tasks l s since S) (htask : tasks[i]? = some t)
    (hothers : ∀ j, j ≠ i → S'.phase j = S.phase j) (hnodup : S'.order.Nodup)
    (hguard : t.guard = some l ↔ i ∈ S'.order) (horder : ∀ j, j ≠ i → (j ∈ S'.order ↔ j ∈ S.order))
    (hlock : Free tasks l s S' ∨ ∃ i front t p, Held tasks l s S' i front t p)
    (hlanded : S.landed <+: S'.landed) (hsees : t.guard = none → Sees tasks s (since i) t S' i) :
    Kept tasks l s since S' where
  nodup := hnodup
  begun := fun j hj => by
    by_cases hji : j = i
    · exact ⟨t, hji ▸ htask, hji ▸ hguard⟩
    · rw [hothers j hji] at hj
      obtain ⟨u, hu, hguard⟩ := h.begun j hj
      exact ⟨u, hu, hguard.trans (horder j hji).symm⟩
  lock := hlock
  landed := fun j => (h.landed j).trans hlanded
  sees := fun j u hu hnone => by
    by_cases hji : j = i
    · subst hji
      obtain rfl : u = t := Option.some.inj (hu.symm.trans htask)
      exact hsees hnone
    · exact (h.sees j u hu hnone).mono (hothers j hji) hlanded

theorem Kept.holder_mem (h : Kept tasks l s since S) (hi : S.holder l = some i) : i ∈ S.order := by
  rcases h.lock with hfree | ⟨j, front, t, p, hheld⟩
  · rw [hfree.holder] at hi
    cases hi
  · rw [hheld.holder] at hi
    injection hi with hi
    simp [hheld.order, hi]

theorem Kept.not_mem_of_waiting (h : Kept tasks l s since S) (hi : S.phase i = .waiting) :
    i ∉ S.order := by
  intro hmem
  rcases h.lock with hfree | ⟨j, front, t, p, hheld⟩
  · obtain ⟨a, ha⟩ := hfree.settled.returned hmem
    rw [hi] at ha
    cases ha
  · rw [hheld.order] at hmem
    rcases List.mem_append.mp hmem with hmem | hmem
    · obtain ⟨a, ha⟩ := hheld.settled.returned hmem
      rw [hi] at ha
      cases ha
    · rw [List.mem_singleton.mp hmem, hheld.phase] at hi
      cases hi

/-- Who has something left to do holds the lock, or is one that takes none. -/
theorem Kept.turn (h : Kept tasks l s since S) (htasks : ∀ t ∈ tasks, t.KeepsTo l)
    (hi : S.phase i = .running p) :
    (∃ front t, Held tasks l s S i front t p) ∨
      ∃ t, tasks[i]? = some t ∧ t.guard = none ∧ t.program.Looks ∧ i ∉ S.order := by
  obtain ⟨t, htask, hguard⟩ := h.begun i (by rw [hi]; exact nofun)
  rcases htasks t (List.mem_of_getElem? htask) with ⟨hsome, -⟩ | ⟨hnone, hlooks⟩
  · left
    have hmem : i ∈ S.order := hguard.mp hsome
    rcases h.lock with hfree | ⟨j, front, u, q, hheld⟩
    · obtain ⟨a, ha⟩ := hfree.settled.returned hmem
      rw [hi] at ha
      cases ha
    · rw [hheld.order] at hmem
      rcases List.mem_append.mp hmem with hmem | hmem
      · obtain ⟨a, ha⟩ := hheld.settled.returned hmem
        rw [hi] at ha
        cases ha
      · obtain rfl := List.mem_singleton.mp hmem
        obtain rfl : p = q := Phase.running.inj (hi.symm.trans hheld.phase)
        exact ⟨front, u, hheld⟩
  · right
    refine ⟨t, htask, hnone, hlooks, fun hmem => ?_⟩
    rw [hguard.mpr hmem] at hnone
    cases hnone

/-- At every moment the store is the one behind those that have landed. -/
theorem Kept.store_landed (h : Kept tasks l s since S) : S.store = storeAfter tasks s S.landed := by
  rcases h.lock with hfree | ⟨i, front, t, p, hheld⟩
  · rw [hfree.landed, hfree.store]
  · rw [hheld.landed]
    split
    · rename_i hpending
      exact hheld.untouched hpending
    · rename_i hpending
      rw [storeAfter_concat hheld.task, ← hheld.alone]
      cases p with
      | done a => rfl
      | call c next => exact absurd (by rw [hheld.phase]; rfl) hpending

theorem Kept.landed_prefix (h : Kept tasks l s since S) : S.landed <+: S.order := by
  rcases h.lock with hfree | ⟨i, front, t, p, hheld⟩
  · rw [hfree.landed]
  · rw [hheld.landed, hheld.order]
    split
    · exact List.prefix_append front [i]
    · exact List.prefix_refl (front ++ [i])

theorem Kept.free_of_holder (h : Kept tasks l s since S) (hholder : S.holder l = none) :
    Free tasks l s S := by
  rcases h.lock with hfree | ⟨i, front, t, p, hheld⟩
  · exact hfree
  · rw [hheld.holder] at hholder
    cases hholder

/-- Whoever held the lock and returned has the reply of a run one after the other. -/
theorem Kept.reply (h : Kept tasks l s since S) {front back : List Nat}
    (horder : S.order = front ++ i :: back) {a : α} (ha : S.result? i = some a) :
    ∃ t, tasks[i]? = some t ∧ a = (t.program.alone (storeAfter tasks s front)).1 := by
  have hphase := result?_eq_some_iff.mp ha
  have hprefix : front ++ [i] <+: S.order := ⟨back, by simp [horder]⟩
  have hof {is : List Nat} (hsettled : Settled tasks s S is) (his : front ++ [i] <+: is) :
      ∃ t, tasks[i]? = some t ∧ a = (t.program.alone (storeAfter tasks s front)).1 := by
    obtain ⟨t, htask, ht⟩ := hsettled front i his
    exact ⟨t, htask, Phase.returned.inj (hphase.symm.trans ht)⟩
  rcases h.lock with hfree | ⟨j, front', t, p, hheld⟩
  · exact hof hfree.settled hprefix
  · rw [hheld.order] at hprefix
    rcases List.prefix_concat_iff.mp hprefix with heq | hprefix
    · obtain ⟨-, hij⟩ := List.append_inj' heq rfl
      rw [List.singleton_inj.mp hij, hheld.phase] at hphase
      cases hphase
    · exact hof hheld.settled hprefix

theorem Kept.returned_before (h : Kept tasks l s since S) {front back : List Nat}
    (horder : S.order = front ++ i :: back) (hback : back ≠ []) : ∃ a, S.result? i = some a := by
  have hprefix : front ++ [i] <+: S.order := ⟨back, by simp [horder]⟩
  have hof {is : List Nat} (hsettled : Settled tasks s S is) (his : front ++ [i] <+: is) :
      ∃ a, S.result? i = some a := by
    obtain ⟨t, -, ht⟩ := hsettled front i his
    exact ⟨_, result?_eq_some_iff.mpr ht⟩
  rcases h.lock with hfree | ⟨j, front', t, p, hheld⟩
  · exact hof hfree.settled hprefix
  · rw [hheld.order] at hprefix horder
    rcases List.prefix_concat_iff.mp hprefix with heq | hprefix
    · rw [← heq] at horder
      simp [hback] at horder
    · exact hof hheld.settled hprefix

/-- For a task that waits, the landings so far are those before it begins. -/
theorem Kept.record (h : Kept tasks l s since S) (hi : S.phase i = .waiting) :
    Kept tasks l s (Function.update since i S.landed) S where
  nodup := h.nodup
  begun := h.begun
  lock := h.lock
  landed := fun j => by
    by_cases hji : j = i
    · rw [hji, Function.update_self]
    · rw [Function.update_of_ne hji]
      exact h.landed j
  sees := fun j t htask hguard => by
    by_cases hji : j = i
    · exact .waiting (hji ▸ hi)
    · rw [Function.update_of_ne hji]
      exact h.sees j t htask hguard

/-- No task is between its begin and its return. -/
def Quiet (S : System κ α) : Prop := ∀ i p, S.phase i ≠ .running p

theorem Quiet.update (h : S.Quiet) {i : Nat} {a : α}
    (hphase : S'.phase = Function.update S.phase i (.returned a)) : S'.Quiet := by
  intro j p
  rw [hphase]
  by_cases hji : j = i
  · rw [hji, Function.update_self]
    exact nofun
  · rw [Function.update_of_ne hji]
    exact h j p

theorem Kept.free_of_quiet (h : Kept tasks l s since S) (hquiet : S.Quiet) : Free tasks l s S := by
  rcases h.lock with hfree | ⟨i, front, t, p, hheld⟩
  · exact hfree
  · exact absurd hheld.phase (hquiet i p)

/-! ## Steps -/

theorem Kept.look (h : Kept tasks l s since S) (htask : tasks[i]? = some t)
    (hguard : t.guard = none) (hi : i ∉ S.order) (hothers : ∀ j, j ≠ i → S'.phase j = S.phase j)
    (hholder : S'.holder l = S.holder l) (horder : S'.order = S.order)
    (hstore : S'.store = S.store) (hsees : Sees tasks s (since i) t S' i) :
    Kept tasks l s since S' := by
  have hphase : ∀ j ∈ S.order, S'.phase j = S.phase j := fun j hj =>
    hothers j fun hji => hi (hji ▸ hj)
  refine h.frame htask hothers (horder ▸ h.nodup) ?_ (fun j _ => by rw [horder]) ?_ ?_
    fun _ => hsees
  · rw [hguard, horder]
    exact ⟨nofun, fun hmem => absurd hmem hi⟩
  · rcases h.lock with hfree | ⟨j, front, u, p, hheld⟩
    · exact Or.inl (hfree.congr hholder horder hstore hphase)
    · exact Or.inr ⟨j, front, u, p, hheld.congr hholder horder hstore hphase⟩
  · rw [landed_congr horder hphase]

theorem Held.answered {c : Call} {next : Except Failure c.Answer → Program α}
    (h : Held tasks l s S i front t (.call c next)) (hi : i ∉ front) :
    Held tasks l s
      { S with
        phase := Function.update S.phase i (.running (next (.ok (answer c S.store).1)))
        store := (answer c S.store).2 }
      i front t (next (.ok (answer c S.store).1)) := by
  have hstore : S.store = storeAfter tasks s front := h.untouched (by rw [h.phase]; rfl)
  refine ⟨h.holder, h.order, h.settled.congr (update_of_not_mem hi _), h.task, h.guard,
    Function.update_self _ _ _, ?_, h.alone, ?_⟩
  · cases h.late with
    | last hnext =>
        obtain ⟨a, ha⟩ := hnext (.ok (answer c S.store).1)
        rw [ha]
        exact .done a
    | read _ hnext => exact hnext _
  · intro hpending
    simp only [Function.update_self] at hpending
    cases h.late with
    | last hnext =>
        obtain ⟨a, ha⟩ := hnext (.ok (answer c S.store).1)
        rw [ha] at hpending
        cases hpending
    | read hread _ => exact (hread S.store).trans hstore

theorem Held.finish {a : α} (h : Held tasks l s S i front t (.done a)) (hi : i ∉ front) :
    Free tasks l s
      { S with
        phase := Function.update S.phase i (.returned a)
        holder := fun l => if S.holder l = some i then none else S.holder l } := by
  have hdone : (a, S.store) = t.program.alone (storeAfter tasks s front) :=
    (Program.alone_done a S.store).symm.trans h.alone
  refine ⟨if_pos h.holder, ?_, ?_⟩
  · rw [h.order]
    refine (h.settled.congr (update_of_not_mem hi _)).concat h.task ?_
    rw [← hdone]
    exact Function.update_self _ _ _
  · rw [h.order, storeAfter_concat h.task, ← hdone]

/-- Who takes no lock has its call answered: the store stays, and the answer decides
the reply. -/
theorem Sees.answered {base : List Nat} {c : Call} {next : Except Failure c.Answer → Program α}
    (h : Sees tasks s base t S i) (hlooks : t.program.Looks)
    (hphase : S.phase i = .running (.call c next)) :
    (answer c S.store).2 = S.store ∧
      next (.ok (answer c S.store).1) = .done (t.program.alone S.store).1 := by
  have hprogram : t.program = .call c next := by
    cases h with
    | waiting hwaiting => exact absurd (hphase.symm.trans hwaiting) nofun
    | before hbefore => exact (Phase.running.inj (hphase.symm.trans hbefore)).symm
    | found hfound _ _ _ =>
        rcases hfound with hfound | hfound <;> exact absurd (hphase.symm.trans hfound) nofun
  rw [hprogram] at hlooks ⊢
  obtain @⟨_, _, hread, hnext⟩ := hlooks
  obtain ⟨a, ha⟩ := hnext (.ok (answer c S.store).1)
  refine ⟨hread S.store, ?_⟩
  rw [Program.alone_call, ha, Program.alone_done]

theorem Sees.finish {base : List Nat} {a : α} (h : Sees tasks s base t S i)
    (hlooks : t.program.Looks) (hphase : S.phase i = .running (.done a))
    (hphase' : S'.phase i = .returned a) (hlanded : S'.landed = S.landed) :
    Sees tasks s base t S' i := by
  cases h with
  | waiting hwaiting => exact absurd (hphase.symm.trans hwaiting) nofun
  | before hbefore =>
      rw [← Phase.running.inj (hphase.symm.trans hbefore)] at hlooks
      cases hlooks
  | @found b front hfound hbase hfront hreply =>
      have hab : a = b := by
        rcases hfound with hfound | hfound
        · exact Program.done.inj (Phase.running.inj (hphase.symm.trans hfound))
        · exact absurd (hphase.symm.trans hfound) nofun
      exact .found (Or.inr hphase') hbase (hlanded ▸ hfront) (hab.trans hreply)

theorem kept_start : Kept tasks l s (fun _ => []) (start s) where
  nodup := List.nodup_nil
  begun := fun _ h => absurd rfl h
  lock := Or.inl ⟨rfl, settled_nil, rfl⟩
  landed := fun _ => List.nil_prefix
  sees := fun _ _ _ _ => .waiting rfl

variable [DecidableEq κ]

theorem Free.acquire (h : Free tasks l s S) (htask : tasks[i]? = some t) (hguard : t.guard = some l)
    (hlate : t.program.ChangesLast) (hi : i ∉ S.order) :
    Held tasks l s
      { S with
        phase := Function.update S.phase i (.running t.program)
        holder := Function.update S.holder l (some i)
        order := S.order ++ [i] }
      i S.order t t.program := by
  refine ⟨Function.update_self _ _ _, rfl, h.settled.congr (update_of_not_mem hi _), htask, hguard,
    Function.update_self _ _ _, hlate, ?_,
    fun _ => h.store⟩
  · rw [h.store]

/-- What one step preserves. -/
theorem Kept.moves (h : Kept tasks l s since S) (htasks : ∀ t ∈ tasks, t.KeepsTo l)
    (hmoves : Moves tasks S i S') : Kept tasks l s since S' := by
  cases hmoves with
  | stay => exact h
  | @begin t htask hguard hphase =>
      exact h.look htask hguard (h.not_mem_of_waiting hphase)
        (fun j hji => Function.update_of_ne hji _ _) rfl rfl rfl
        (.before (Function.update_self _ _ _))
  | @acquire t l' htask hguard hphase hholder =>
      have hi := h.not_mem_of_waiting hphase
      rcases htasks t (List.mem_of_getElem? htask) with ⟨hlock, hlate⟩ | ⟨hnone, -⟩
      · obtain rfl : l' = l := Option.some.inj (hguard.symm.trans hlock)
        rcases h.lock with hfree | ⟨j, front, u, p, hheld⟩
        · have hheld := hfree.acquire htask hguard hlate hi
          refine h.frame htask (fun j hji => Function.update_of_ne hji _ _) ?_ ?_
            (fun j hji => by simp [hji]) (Or.inr ⟨_, _, _, _, hheld⟩) ?_ ?_
          · refine List.nodup_append.mpr ⟨h.nodup, List.pairwise_singleton _ _, fun j hj k hk => ?_⟩
            rw [List.mem_singleton.mp hk]
            exact ne_of_mem_of_not_mem hj hi
          · exact iff_of_true hlock (List.mem_append_right _ (List.mem_singleton.mpr rfl))
          · rw [hfree.landed]
            exact hheld.prefix_landed
          · exact fun hnone => absurd (hlock.symm.trans hnone) nofun
        · rw [hheld.holder] at hholder
          cases hholder
      · rw [hnone] at hguard
        cases hguard
  | @answered c next hphase =>
      rcases h.turn htasks hphase with ⟨front, t, hheld⟩ | ⟨t, htask, hguard, hlooks, hi⟩
      · have hheld' := hheld.answered (hheld.not_mem h.nodup)
        have hlanded : S.landed = front := by rw [hheld.landed, if_pos (by rw [hphase]; rfl)]
        refine h.frame hheld.task (fun j hji => Function.update_of_ne hji _ _) h.nodup ?_
          (fun j _ => Iff.rfl) (Or.inr ⟨_, _, _, _, hheld'⟩) ?_ ?_
        · exact iff_of_true hheld.guard (by simp [hheld.order])
        · rw [hlanded]
          exact hheld'.prefix_landed
        · exact fun hnone => absurd (hheld.guard.symm.trans hnone) nofun
      · obtain ⟨hstore, hdone⟩ := (h.sees i t htask hguard).answered hlooks hphase
        refine h.look htask hguard hi (fun j hji => Function.update_of_ne hji _ _) rfl rfl hstore
          (.found (Or.inl ?_) (h.landed i) ?_ rfl)
        · rw [← h.store_landed, ← hdone]
          exact Function.update_self _ _ _
        · rw [landed_update hi]
  | @finish a hphase =>
      rcases h.turn htasks hphase with ⟨front, t, hheld⟩ | ⟨t, htask, hguard, hlooks, hi⟩
      · have hi := hheld.not_mem h.nodup
        have hfree := hheld.finish hi
        refine h.frame hheld.task (fun j hji => Function.update_of_ne hji _ _) h.nodup ?_
          (fun j _ => Iff.rfl) (Or.inl hfree) ?_ ?_
        · exact iff_of_true hheld.guard (by simp [hheld.order])
        · rw [hfree.landed, hheld.landed, if_neg (by rw [hphase]; exact nofun)]
          exact hheld.order ▸ List.prefix_refl S.order
        · exact fun hnone => absurd (hheld.guard.symm.trans hnone) nofun
      · refine h.look htask hguard hi (fun j hji => Function.update_of_ne hji _ _) ?_ rfl rfl
          ((h.sees i t htask hguard).finish hlooks hphase (Function.update_self _ _ _)
            (landed_update hi _ _ _))
        exact if_neg fun hholder => hi (h.holder_mem hholder)

/-! ## Runs -/

theorem Kept.run (h : Kept tasks l s since S) (htasks : ∀ t ∈ tasks, t.KeepsTo l)
    (schedule : List Nat) : Kept tasks l s since (run tasks S schedule) :=
  run_induction h (fun _ _ _ hS hmoves => hS.moves htasks hmoves) schedule

theorem kept_run (htasks : ∀ t ∈ tasks, t.KeepsTo l) (s : Contents) (schedule : List Nat) :
    Kept tasks l s (fun _ => []) (run tasks (start s) schedule) :=
  kept_start.run htasks schedule

/-- A task that takes no lock finds the store behind some of the others: all that
had landed before it began, and none that had not when it returned. -/
theorem found_between (htasks : ∀ t ∈ tasks, t.KeepsTo l) (s : Contents) {schedule rest : List Nat}
    (htask : tasks[i]? = some t) (hguard : t.guard = none)
    (hi : (System.run tasks (start s) schedule).phase i = .waiting) {a : α}
    (ha : (System.run tasks (start s) (schedule ++ rest)).result? i = some a) :
    ∃ front, (System.run tasks (start s) schedule).landed <+: front ∧
      front <+: (System.run tasks (start s) (schedule ++ rest)).landed ∧
      a = (t.program.alone (storeAfter tasks s front)).1 := by
  have hkept := ((kept_run htasks s schedule).record hi).run htasks rest
  rw [← run_append] at hkept
  have hsees := hkept.sees i t htask hguard
  rw [Function.update_self] at hsees
  have hphase := result?_eq_some_iff.mp ha
  cases hsees with
  | waiting hwaiting => exact absurd (hphase.symm.trans hwaiting) nofun
  | before hbefore => exact absurd (hphase.symm.trans hbefore) nofun
  | @found b front hfound hbase hfront hreply =>
      refine ⟨front, hbase, hfront, ?_⟩
      rcases hfound with hfound | hfound
      · exact absurd (hphase.symm.trans hfound) nofun
      · rw [Phase.returned.inj (hphase.symm.trans hfound), hreply]

/-! ## Runs to the end -/

theorem Kept.exists_quiet (h : Kept tasks l s since S) (htasks : ∀ t ∈ tasks, t.KeepsTo l) :
    ∃ schedule, (System.run tasks S schedule).Quiet := by
  have hbelow (k : Nat) : ∃ schedule, ∀ i < k, ∀ p,
      (System.run tasks S schedule).phase i ≠ .running p := by
    induction k with
    | zero => exact ⟨[], fun _ hi => absurd hi (Nat.not_lt_zero _)⟩
    | succ k ih =>
        obtain ⟨schedule, hquiet⟩ := ih
        by_cases hrunning : ∃ p, (System.run tasks S schedule).phase k = .running p
        · obtain ⟨p, hp⟩ := hrunning
          obtain ⟨rest, a, hrest⟩ := exists_returned tasks hp
          refine ⟨schedule ++ rest, fun i hi q => ?_⟩
          rw [run_append, hrest]
          by_cases hik : i = k
          · rw [hik, Function.update_self]
            exact nofun
          · rw [Function.update_of_ne hik]
            exact hquiet i (by omega) q
        · refine ⟨schedule, fun i hi q hq => ?_⟩
          rcases Nat.lt_succ_iff_lt_or_eq.mp hi with hik | rfl
          · exact hquiet i hik q hq
          · exact hrunning ⟨q, hq⟩
  obtain ⟨schedule, hquiet⟩ := hbelow tasks.length
  refine ⟨schedule, fun i p hp => ?_⟩
  obtain ⟨t, htask, -⟩ := (h.run htasks schedule).begun i (by rw [hp]; exact nofun)
  exact hquiet i (List.getElem?_eq_some_iff.mp htask).1 p hp

theorem Kept.exists_all_returned (h : Kept tasks l s since S) (htasks : ∀ t ∈ tasks, t.KeepsTo l) :
    ∃ schedule, ∀ i < tasks.length, ∃ a, (System.run tasks S schedule).result? i = some a := by
  have hbelow (k : Nat) (hk : k ≤ tasks.length) : ∃ schedule,
      (System.run tasks S schedule).Quiet ∧
        ∀ i < k, ∃ a, (System.run tasks S schedule).phase i = .returned a := by
    induction k with
    | zero =>
        obtain ⟨schedule, hquiet⟩ := h.exists_quiet htasks
        exact ⟨schedule, hquiet, fun _ hi => absurd hi (Nat.not_lt_zero _)⟩
    | succ k ih =>
        obtain ⟨schedule, hquiet, hreturned⟩ := ih (by omega)
        have hkept := h.run htasks schedule
        generalize hS : System.run tasks S schedule = T at hquiet hreturned hkept
        cases hphase : T.phase k with
        | running p => exact absurd hphase (hquiet k p)
        | returned a =>
            refine ⟨schedule, hS ▸ hquiet, fun i hi => ?_⟩
            rw [hS]
            rcases Nat.lt_succ_iff_lt_or_eq.mp hi with hik | rfl
            · exact hreturned i hik
            · exact ⟨a, hphase⟩
        | waiting =>
            have htask : tasks[k]? = some tasks[k] := List.getElem?_eq_getElem hk
            have hstep := phase_step_of_waiting hphase htask fun l' hguard => by
              rcases htasks _ (List.mem_of_getElem? htask) with ⟨hlock, -⟩ | ⟨hnone, -⟩
              · rw [Option.some.inj (hguard.symm.trans hlock)]
                exact (hkept.free_of_quiet hquiet).holder
              · rw [hnone] at hguard
                cases hguard
            obtain ⟨rest, a, hrest⟩ :=
              exists_returned tasks (by rw [hstep, Function.update_self])
            rw [hstep, Function.update_idem] at hrest
            have hrun : System.run tasks S (schedule ++ k :: rest) =
                System.run tasks (step tasks T k) rest := by
              rw [run_append, hS]
              rfl
            refine ⟨schedule ++ k :: rest, ?_, fun i hi => ?_⟩
            · rw [hrun]
              exact hquiet.update hrest
            · rw [hrun, hrest]
              by_cases hik : i = k
              · exact ⟨a, by rw [hik, Function.update_self]⟩
              · rw [Function.update_of_ne hik]
                exact hreturned i (by omega)
  obtain ⟨schedule, -, hreturned⟩ := hbelow tasks.length (Nat.le_refl _)
  refine ⟨schedule, fun i hi => ?_⟩
  obtain ⟨a, ha⟩ := hreturned i hi
  exact ⟨a, result?_eq_some_iff.mpr ha⟩

end System

end Matinee.Store
