/-
# `Matinee.Proofs.Store.Runs` — programs one after the other, and side by side

Programs share one store whose calls do not fail.  `runAll` lets each finish
before the next begins.

Side by side they are tasks, and a step lets one task go on: it begins, taking its
lock if it has one and the lock is free, or has one call answered, or returns and
lets its lock go.  A step of a task that cannot go on changes nothing, so any list
of task numbers is a schedule, and every interleaving that the locks allow is the
run of one.

`Moves` says once what a step can do; invariants are proved by cases on it.  `writers`
lists the tasks whose steps write the text under a key: between two of them it stays.
-/
import Mathlib.Logic.Function.Basic
import Matinee.Store.Basic

namespace Matinee.Store

/-! ## One after the other -/

/-- A program that has the store for itself. -/
def Program.alone (p : Program α) (s : Contents) : α × Contents :=
  Program.run (m := StateM Contents) (answerUnder fun _ => none) p s

theorem Program.alone_done (a : α) (s : Contents) : (Program.done a).alone s = (a, s) := rfl

theorem Program.alone_call (c : Call) (next : Except Failure c.Answer → Program α) (s : Contents) :
    (Program.call c next).alone s = (next (.ok (answer c s).1)).alone (answer c s).2 := rfl

def runAll : List (Program α) → Contents → List α × Contents
  | [], s => ([], s)
  | p :: ps, s =>
    let (a, s') := p.alone s
    let (as, s'') := runAll ps s'
    (a :: as, s'')

theorem runAll_append (ps qs : List (Program α)) (s : Contents) :
    runAll (ps ++ qs) s =
      ((runAll ps s).1 ++ (runAll qs (runAll ps s).2).1, (runAll qs (runAll ps s).2).2) := by
  induction ps generalizing s with
  | nil => rfl
  | cons p ps ih => simp only [List.cons_append, runAll, ih]

/-! ## Writes -/

/-- The call writes the text under a key. -/
def Call.writes (key : String) (s : Contents) : Call → Bool
  | .get _ => false
  | .set k _ => k == key
  | .setIfAbsent k _ => k == key && !s.contains k

theorem Call.writes_setIfAbsent_iff {key k value : String} {s : Contents} :
    (Call.setIfAbsent k value).writes key s = true ↔ k = key ∧ k ∉ s := by
  rw [writes, Bool.and_eq_true, beq_iff_eq, Bool.not_eq_true', ← Bool.not_eq_true,
    Std.ExtHashMap.contains_iff_mem]

theorem Call.getElem?_answer_of_not_writes {c : Call} {key : String} {s : Contents}
    (h : c.writes key s = false) : (answer c s).2[key]? = s[key]? := by
  cases c with
  | get k => rfl
  | set k value =>
      have hkey : (k == key) = false := h
      rw [answer, Std.ExtHashMap.getElem?_insert, hkey, if_neg Bool.false_ne_true]
  | setIfAbsent k value =>
      rw [answer]
      split
      · rfl
      · rename_i habsent
        have hkey : ¬ (k == key) = true := fun hk =>
          ne_true_of_eq_false h (writes_setIfAbsent_iff.mpr ⟨beq_iff_eq.mp hk, habsent⟩)
        rw [Std.ExtHashMap.getElem?_insert, if_neg hkey]

/-! ## Side by side -/

/-- A program with the lock that is held from before its first call until after
its last. -/
structure Task (κ α : Type) where
  guard : Option κ
  program : Program α

/-- How far a task has come. -/
inductive Phase (α : Type) where
  | waiting
  | running (rest : Program α)
  | returned (a : α)

/-- Calls are left to be made. -/
def Phase.isPending : Phase α → Bool
  | .running (.call _ _) => true
  | _ => false

/-- Tasks on their way.  `order` has those that took a lock, in the order in which
they did. -/
structure System (κ α : Type) where
  phase : Nat → Phase α
  holder : κ → Option Nat
  store : Contents
  order : List Nat

namespace System

variable {κ α : Type} [DecidableEq κ]

def start (s : Contents) : System κ α := ⟨fun _ => .waiting, fun _ => none, s, []⟩

/-- The task begins, if it need not wait for its lock. -/
def enter (S : System κ α) (i : Nat) (t : Task κ α) : System κ α :=
  let S' := { S with phase := Function.update S.phase i (.running t.program) }
  match t.guard with
  | none => S'
  | some l =>
    match S.holder l with
    | some _ => S
    | none => { S' with holder := Function.update S.holder l (some i), order := S.order ++ [i] }

/-- One step of a task. -/
def step (tasks : List (Task κ α)) (S : System κ α) (i : Nat) : System κ α :=
  match S.phase i with
  | .waiting =>
    match tasks[i]? with
    | some t => S.enter i t
    | none => S
  | .running (.call c next) =>
    let (a, s) := answer c S.store
    { S with phase := Function.update S.phase i (.running (next (.ok a))), store := s }
  | .running (.done a) =>
    { S with
      phase := Function.update S.phase i (.returned a)
      holder := fun l => if S.holder l = some i then none else S.holder l }
  | .returned _ => S

/-- The tasks go on in the order of a schedule. -/
def run (tasks : List (Task κ α)) (S : System κ α) (schedule : List Nat) : System κ α :=
  schedule.foldl (step tasks) S

theorem run_append (tasks : List (Task κ α)) (S : System κ α) (schedule rest : List Nat) :
    run tasks S (schedule ++ rest) = run tasks (run tasks S schedule) rest :=
  List.foldl_append

/-- What a task has returned. -/
def result? (S : System κ α) (i : Nat) : Option α :=
  match S.phase i with
  | .returned a => some a
  | _ => none

/-- The tasks that took a lock and have made all of their calls. -/
def landed (S : System κ α) : List Nat := S.order.filter fun i => !(S.phase i).isPending

/-- What a step of the task `i` can do. -/
inductive Moves (tasks : List (Task κ α)) (S : System κ α) (i : Nat) : System κ α → Prop where
  | stay : Moves tasks S i S
  | begin {t : Task κ α} (htask : tasks[i]? = some t) (hguard : t.guard = none)
      (hphase : S.phase i = .waiting) :
      Moves tasks S i { S with phase := Function.update S.phase i (.running t.program) }
  | acquire {t : Task κ α} {l : κ} (htask : tasks[i]? = some t) (hguard : t.guard = some l)
      (hphase : S.phase i = .waiting) (hfree : S.holder l = none) :
      Moves tasks S i
        { S with
          phase := Function.update S.phase i (.running t.program)
          holder := Function.update S.holder l (some i)
          order := S.order ++ [i] }
  | answered {c : Call} {next : Except Failure c.Answer → Program α}
      (hphase : S.phase i = .running (.call c next)) :
      Moves tasks S i
        { S with
          phase := Function.update S.phase i (.running (next (.ok (answer c S.store).1)))
          store := (answer c S.store).2 }
  | finish {a : α} (hphase : S.phase i = .running (.done a)) :
      Moves tasks S i
        { S with
          phase := Function.update S.phase i (.returned a)
          holder := fun l => if S.holder l = some i then none else S.holder l }

theorem moves_step (tasks : List (Task κ α)) (S : System κ α) (i : Nat) :
    Moves tasks S i (step tasks S i) := by
  unfold step
  split
  · rename_i hphase
    split
    · rename_i t htask
      unfold enter
      split
      · rename_i hguard
        exact .begin htask hguard hphase
      · rename_i l hguard
        split
        · exact .stay
        · rename_i hfree
          exact .acquire htask hguard hphase hfree
    · exact .stay
  · rename_i hphase
    exact .answered hphase
  · rename_i hphase
    exact .finish hphase
  · exact .stay

/-- What the steps of all tasks keep holds behind every schedule. -/
theorem run_induction {tasks : List (Task κ α)} {P : System κ α → Prop} {S : System κ α}
    (hS : P S) (hmoves : ∀ (S S' : System κ α) (i : Nat), P S → Moves tasks S i S' → P S')
    (schedule : List Nat) : P (run tasks S schedule) := by
  induction schedule generalizing S with
  | nil => exact hS
  | cons i schedule ih => exact ih (hmoves S _ i hS (moves_step tasks S i))

/-! ### Going on to the end -/

variable {S : System κ α} {i : Nat}

theorem phase_step_of_waiting {tasks : List (Task κ α)} {t : Task κ α}
    (hphase : S.phase i = .waiting) (htask : tasks[i]? = some t)
    (hfree : ∀ l, t.guard = some l → S.holder l = none) :
    (step tasks S i).phase = Function.update S.phase i (.running t.program) := by
  simp only [step, hphase, htask, enter]
  cases hguard : t.guard with
  | none => rfl
  | some l => simp only [hfree l hguard]

/-- A task that has begun can go on until it returns, while the others stay. -/
theorem exists_returned (tasks : List (Task κ α)) {p : Program α}
    (hphase : S.phase i = .running p) :
    ∃ schedule a, (run tasks S schedule).phase = Function.update S.phase i (.returned a) := by
  induction p generalizing S with
  | done a =>
      refine ⟨[i], a, ?_⟩
      simp only [run, List.foldl, step, hphase]
  | call c next ih =>
      have hstep : (step tasks S i).phase =
          Function.update S.phase i (.running (next (.ok (answer c S.store).1))) := by
        simp only [step, hphase]
      obtain ⟨schedule, a, ha⟩ := ih _ (by rw [hstep, Function.update_self])
      refine ⟨i :: schedule, a, ha.trans ?_⟩
      rw [hstep, Function.update_idem]

theorem exists_returned_of_guard {tasks : List (Task κ α)} {t : Task κ α}
    (htask : tasks[i]? = some t) (hguard : t.guard = none) (S : System κ α) :
    ∃ schedule a, (run tasks S schedule).phase = Function.update S.phase i (.returned a) := by
  cases hphase : S.phase i with
  | running p => exact exists_returned tasks hphase
  | returned a =>
      refine ⟨[], a, ?_⟩
      rw [← hphase, Function.update_eq_self]
      rfl
  | waiting =>
      have hstep : (step tasks S i).phase = Function.update S.phase i (.running t.program) :=
        phase_step_of_waiting hphase htask fun l hl => by
          rw [hguard] at hl
          cases hl
      obtain ⟨schedule, a, ha⟩ :=
        exists_returned tasks (S := step tasks S i) (i := i) (by rw [hstep, Function.update_self])
      refine ⟨i :: schedule, a, ha.trans ?_⟩
      rw [hstep, Function.update_idem]

theorem exists_all_returned {tasks : List (Task κ α)} (htasks : ∀ t ∈ tasks, t.guard = none)
    (S : System κ α) :
    ∃ schedule, ∀ i < tasks.length, ∃ a, (run tasks S schedule).phase i = .returned a := by
  have hbelow (k : Nat) (hk : k ≤ tasks.length) :
      ∃ schedule, ∀ i < k, ∃ a, (run tasks S schedule).phase i = .returned a := by
    induction k with
    | zero => exact ⟨[], nofun⟩
    | succ k ih =>
        obtain ⟨schedule, hreturned⟩ := ih (by omega)
        obtain ⟨more, a, hmore⟩ := exists_returned_of_guard (List.getElem?_eq_getElem hk)
          (htasks _ (List.getElem_mem hk)) (run tasks S schedule)
        refine ⟨schedule ++ more, fun i hi => ?_⟩
        rw [run_append, hmore]
        by_cases hik : i = k
        · exact ⟨a, by rw [hik, Function.update_self]⟩
        · rw [Function.update_of_ne hik]
          exact hreturned i (by omega)
  exact hbelow tasks.length (Nat.le_refl _)

/-! ### Writes -/

/-- The next step of the task writes the text under a key. -/
def wrote (S : System κ α) (key : String) (i : Nat) : Bool :=
  match S.phase i with
  | .running (.call c _) => c.writes key S.store
  | _ => false

/-- The tasks that write the text under a key, in the order in which they do. -/
def writers (tasks : List (Task κ α)) (key : String) (S : System κ α) : List Nat → List Nat
  | [] => []
  | i :: schedule =>
    let later := writers tasks key (step tasks S i) schedule
    if S.wrote key i then i :: later else later

variable {tasks : List (Task κ α)} {key : String}

theorem writers_append (schedule rest : List Nat) :
    writers tasks key S (schedule ++ rest) =
      writers tasks key S schedule ++ writers tasks key (run tasks S schedule) rest := by
  induction schedule generalizing S with
  | nil => rfl
  | cons i schedule ih =>
      simp only [List.cons_append, writers, ih]
      split <;> rfl

theorem getElem?_step_of_not_wrote (h : S.wrote key i = false) :
    (step tasks S i).store[key]? = S.store[key]? := by
  have hmoves := moves_step tasks S i
  generalize step tasks S i = S' at hmoves
  cases hmoves with
  | stay => rfl
  | begin => rfl
  | acquire => rfl
  | @answered c next hphase =>
      rw [wrote, hphase] at h
      exact Call.getElem?_answer_of_not_writes h
  | finish => rfl

theorem getElem?_run_of_writers {schedule : List Nat} (h : writers tasks key S schedule = []) :
    (run tasks S schedule).store[key]? = S.store[key]? := by
  induction schedule generalizing S with
  | nil => rfl
  | cons i schedule ih =>
      rw [writers] at h
      split at h
      · cases h
      · rename_i hwrote
        exact (ih h).trans (getElem?_step_of_not_wrote (eq_false_of_ne_true hwrote))

end System

end Matinee.Store
