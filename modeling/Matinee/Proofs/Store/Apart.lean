/-
# `Matinee.Proofs.Store.Apart` — tasks that share a store but no keys

Some tasks have keys and locks of their own, and the others keep away from these.
Whatever the others do, and whichever calls fail, the tasks of the share go on as
they would with the others standing still (`alike_runAs`).

Two runs are compared step by step: one of all tasks, and one from which every step
of the others has been taken out.  A step of the share is made in both, one of the
others in the first alone; either way the runs stay alike as far as the share can see.
For that the first run must be known to be confined: nobody who is on his way calls
for a key, or holds a lock, on the wrong side.
-/
import Matinee.Proofs.Store.Runs

namespace Matinee.Store

/-! ## Calls that fail -/

/-- What becomes of a call. -/
inductive Fate where
  | answered
  /-- It fails before it has written anything. -/
  | refused (f : Failure)
  /-- It is carried out, and its answer gets lost. -/
  | lost (f : Failure)

/-- A call to a store. -/
def answerAs (fate : Fate) (c : Call) (s : Contents) : Except Failure c.Answer × Contents :=
  match fate with
  | .answered => (.ok (answer c s).1, (answer c s).2)
  | .refused f => (.error f, s)
  | .lost f => (.error f, (answer c s).2)

theorem answerUnder_eq_answerAs (outage : Outage) (c : Call) (s : Contents) :
    answerUnder outage c s = answerAs ((outage c).elim .answered .refused) c s := by
  rw [answerUnder]
  cases outage c <;> rfl

/-! ## Keys -/

def Call.key : Call → String
  | .get key | .set key _ | .setIfAbsent key _ => key

/-- All calls of the program are about these keys. -/
inductive Program.Within (keys : String → Prop) : Program α → Prop where
  | done (a : α) : Within keys (.done a)
  | call {c : Call} {next : Except Failure c.Answer → Program α} (hkey : keys c.key)
      (hnext : ∀ r, Within keys (next r)) : Within keys (.call c next)

/-- The stores have the same texts under these keys. -/
def Agree (keys : String → Prop) (s t : Contents) : Prop := ∀ key, keys key → s[key]? = t[key]?

section Keys

variable {keys keys' : String → Prop} {s t : Contents} {c : Call}

theorem Program.Within.mono {p : Program α} (h : p.Within keys)
    (hkeys : ∀ key, keys key → keys' key) : p.Within keys' := by
  induction h with
  | done a => exact .done a
  | call hkey _ ih => exact .call (hkeys _ hkey) ih

theorem Program.Within.map {p : Program α} (h : p.Within keys) (f : α → β) :
    (f <$> p).Within keys := by
  induction h with
  | done a => exact .done (f a)
  | call hkey _ ih => exact .call hkey ih

theorem Call.writes_of_key_ne {key : String} (h : c.key ≠ key) (s : Contents) :
    c.writes key s = false := by
  have hkey : (c.key == key) = false := beq_eq_false_iff_ne.mpr h
  cases c with
  | get k => rfl
  | set k value => exact hkey
  | setIfAbsent k value =>
      show (k == key && !s.contains k) = false
      rw [show (k == key) = false from hkey, Bool.false_and]

/-- A call sees nothing but the text under its key. -/
theorem answer_congr (h : s[c.key]? = t[c.key]?) :
    (answer c s).1 = (answer c t).1 ∧ (answer c s).2[c.key]? = (answer c t).2[c.key]? := by
  cases c with
  | get k => exact ⟨h, h⟩
  | set k value =>
      refine ⟨rfl, ?_⟩
      show (s.insert k value)[k]? = (t.insert k value)[k]?
      rw [Std.ExtHashMap.getElem?_insert_self, Std.ExtHashMap.getElem?_insert_self]
  | setIfAbsent k value =>
      have hmem : k ∈ s ↔ k ∈ t := by
        rw [Std.ExtHashMap.mem_iff_isSome_getElem?, Std.ExtHashMap.mem_iff_isSome_getElem?]
        exact iff_of_eq (congrArg (·.isSome = true) h)
      by_cases hk : k ∈ s
      · rw [answer, answer, if_pos hk, if_pos (hmem.mp hk)]
        exact ⟨rfl, h⟩
      · rw [answer, answer, if_neg hk, if_neg (hmem.not.mp hk)]
        refine ⟨rfl, ?_⟩
        show (s.insert k value)[k]? = (t.insert k value)[k]?
        rw [Std.ExtHashMap.getElem?_insert_self, Std.ExtHashMap.getElem?_insert_self]

theorem getElem?_answerAs_of_key_ne {key : String} (h : c.key ≠ key) (fate : Fate) (s : Contents) :
    (answerAs fate c s).2[key]? = s[key]? := by
  have hanswer := Call.getElem?_answer_of_not_writes (Call.writes_of_key_ne h s)
  cases fate with
  | answered => exact hanswer
  | refused f => rfl
  | lost f => exact hanswer

theorem Agree.answerAs_fst (h : Agree keys s t) (hkey : keys c.key) (fate : Fate) :
    (answerAs fate c s).1 = (answerAs fate c t).1 := by
  cases fate with
  | answered => exact congrArg Except.ok (answer_congr (h c.key hkey)).1
  | refused f => rfl
  | lost f => rfl

theorem Agree.answerAs_snd (h : Agree keys s t) (hkey : keys c.key) (fate : Fate) :
    Agree keys (answerAs fate c s).2 (answerAs fate c t).2 := by
  intro key hmine
  by_cases hc : c.key = key
  · subst hc
    have hanswer := (answer_congr (h c.key hkey)).2
    cases fate with
    | answered => exact hanswer
    | refused f => exact h c.key hkey
    | lost f => exact hanswer
  · rw [getElem?_answerAs_of_key_ne hc, getElem?_answerAs_of_key_ne hc]
    exact h key hmine

theorem Agree.answerAs_left (h : Agree keys s t) (hkey : ¬ keys c.key) (fate : Fate) :
    Agree keys (answerAs fate c s).2 t := by
  intro key hmine
  have hc : c.key ≠ key := fun hc => hkey (hc ▸ hmine)
  rw [getElem?_answerAs_of_key_ne hc]
  exact h key hmine

end Keys

/-! ## Steps -/

theorem Phase.isPending_iff {x : Phase α} :
    x.isPending = true ↔ ∃ c next, x = .running (.call c next) := by
  constructor
  · intro h
    cases x with
    | waiting => cases h
    | returned a => cases h
    | running p =>
        cases p with
        | done a => cases h
        | call c next => exact ⟨c, next, rfl⟩
  · rintro ⟨c, next, rfl⟩
    rfl

/-- Some of the tasks, with the keys and the locks that are theirs alone. -/
structure Share (κ : Type) where
  tasks : Nat → Prop
  keys : String → Prop
  locks : κ → Prop

/-- The tasks of the share keep to its keys and locks, and the others away from them. -/
structure Share.Apart (P : Share κ) (tasks : List (Task κ α)) : Prop where
  within : ∀ (i : Nat) (t : Task κ α), tasks[i]? = some t →
    t.program.Within fun key => P.keys key ↔ P.tasks i
  guard : ∀ (i : Nat) (t : Task κ α) (l : κ), tasks[i]? = some t → t.guard = some l →
    (P.locks l ↔ P.tasks i)

namespace System

variable {κ α : Type}

/-- Everybody who is on his way is on his side. -/
structure Confined (P : Share κ) (S : System κ α) : Prop where
  within : ∀ i p, S.phase i = .running p → p.Within fun key => P.keys key ↔ P.tasks i
  holder : ∀ l i, S.holder l = some i → (P.locks l ↔ P.tasks i)

/-- The share cannot tell the two systems from one another. -/
structure Alike (P : Share κ) (S T : System κ α) : Prop where
  phase : ∀ i, P.tasks i → S.phase i = T.phase i
  store : Agree P.keys S.store T.store
  holder : ∀ l, P.locks l → S.holder l = T.holder l

variable {P : Share κ} {S T : System κ α} {i : Nat}

theorem confined_start (P : Share κ) (s : Contents) : Confined P (start s : System κ α) where
  within := fun _ _ h => nomatch h
  holder := fun _ _ h => nomatch h

theorem Alike.refl (P : Share κ) (S : System κ α) : Alike P S S where
  phase := fun _ _ => rfl
  store := fun _ _ => rfl
  holder := fun _ _ => rfl

theorem Confined.update_phase (h : Confined P S) {p : Program α}
    (hp : p.Within fun key => P.keys key ↔ P.tasks i) (j : Nat) (q : Program α)
    (hq : Function.update S.phase i (.running p) j = .running q) :
    q.Within fun key => P.keys key ↔ P.tasks j := by
  by_cases hji : j = i
  · subst hji
    rw [Function.update_self] at hq
    exact Phase.running.inj hq ▸ hp
  · rw [Function.update_of_ne hji] at hq
    exact h.within j q hq

theorem Alike.update_phase (h : Alike P S T) (i : Nat) (x : Phase α) (j : Nat) (hj : P.tasks j) :
    Function.update S.phase i x j = Function.update T.phase i x j := by
  by_cases hji : j = i
  · rw [hji, Function.update_self, Function.update_self]
  · rw [Function.update_of_ne hji, Function.update_of_ne hji]
    exact h.phase j hj

theorem Alike.update_phase_left (h : Alike P S T) (hi : ¬ P.tasks i) (x : Phase α) (j : Nat)
    (hj : P.tasks j) : Function.update S.phase i x j = T.phase j := by
  have hji : j ≠ i := fun hji => hi (hji ▸ hj)
  rw [Function.update_of_ne hji]
  exact h.phase j hj

variable [DecidableEq κ]

/-- One step of a task; if it makes a call, this is what becomes of the call. -/
def stepAs (tasks : List (Task κ α)) (S : System κ α) (move : Nat × Fate) : System κ α :=
  match S.phase move.1 with
  | .running (.call c next) =>
    let (r, s) := answerAs move.2 c S.store
    { S with phase := Function.update S.phase move.1 (.running (next r)), store := s }
  | _ => step tasks S move.1

/-- The tasks go on in the order of some moves. -/
def runAs (tasks : List (Task κ α)) (S : System κ α) (moves : List (Nat × Fate)) : System κ α :=
  moves.foldl (stepAs tasks) S

variable {tasks : List (Task κ α)} {fate : Fate}

theorem stepAs_of_call {c : Call} {next : Except Failure c.Answer → Program α}
    (hphase : S.phase i = .running (.call c next)) :
    stepAs tasks S (i, fate) =
      { S with
        phase := Function.update S.phase i (.running (next (answerAs fate c S.store).1))
        store := (answerAs fate c S.store).2 } := by
  simp only [stepAs, hphase]

theorem stepAs_of_not_call (h : (S.phase i).isPending = false) :
    stepAs tasks S (i, fate) = step tasks S i := by
  rw [stepAs]
  split
  · rename_i hphase
    rw [hphase] at h
    cases h
  · rfl

/-- Where no call fails these are the steps of tasks on a store that does not fail. -/
theorem stepAs_answered (tasks : List (Task κ α)) (S : System κ α) (i : Nat) :
    stepAs tasks S (i, .answered) = step tasks S i := by
  cases hpending : (S.phase i).isPending with
  | false => exact stepAs_of_not_call hpending
  | true =>
      obtain ⟨c, next, hphase⟩ := Phase.isPending_iff.mp hpending
      rw [stepAs_of_call hphase]
      simp only [step, hphase, answerAs]

/-- What one step preserves. -/
theorem Confined.stepAs (h : Confined P S) (hapart : P.Apart tasks) (i : Nat) (fate : Fate) :
    Confined P (stepAs tasks S (i, fate)) := by
  cases hpending : (S.phase i).isPending with
  | true =>
      obtain ⟨c, next, hphase⟩ := Phase.isPending_iff.mp hpending
      rw [stepAs_of_call hphase]
      cases h.within i _ hphase with
      | call hkey hnext => exact ⟨h.update_phase (hnext _), h.holder⟩
  | false =>
      rw [stepAs_of_not_call hpending]
      have hmoves := moves_step tasks S i
      generalize step tasks S i = S' at hmoves
      cases hmoves with
      | stay => exact h
      | begin htask hguard hphase =>
          exact ⟨h.update_phase (hapart.within i _ htask), h.holder⟩
      | @acquire t l htask hguard hphase hfree =>
          refine ⟨h.update_phase (hapart.within i _ htask), ?_⟩
          intro l' j hl'
          replace hl' : Function.update S.holder l (some i) l' = some j := hl'
          by_cases hll : l' = l
          · rw [hll, Function.update_self] at hl'
            rw [hll, ← Option.some.inj hl']
            exact hapart.guard i t l htask hguard
          · rw [Function.update_of_ne hll] at hl'
            exact h.holder l' j hl'
      | answered hphase =>
          rw [hphase] at hpending
          cases hpending
      | @finish a hphase =>
          refine ⟨?_, ?_⟩
          · intro j q hq
            replace hq : Function.update S.phase i (.returned a) j = .running q := hq
            by_cases hji : j = i
            · rw [hji, Function.update_self] at hq
              cases hq
            · rw [Function.update_of_ne hji] at hq
              exact h.within j q hq
          · intro l j hl
            replace hl : (if S.holder l = some i then none else S.holder l) = some j := hl
            split at hl
            · cases hl
            · exact h.holder l j hl

theorem Alike.step (h : Alike P S T) (hapart : P.Apart tasks) (hi : P.tasks i)
    (hpending : (T.phase i).isPending = false) : Alike P (step tasks S i) (step tasks T i) := by
  have hsame := h.phase i hi
  cases hphase : T.phase i with
  | waiting =>
      rw [hphase] at hsame
      cases htask : tasks[i]? with
      | none =>
          simp only [System.step, hsame, hphase, htask]
          exact h
      | some t =>
          simp only [System.step, hsame, hphase, htask, enter]
          cases hguard : t.guard with
          | none => exact ⟨h.update_phase i _, h.store, h.holder⟩
          | some l =>
              have hl := h.holder l ((hapart.guard i t l htask hguard).mpr hi)
              cases hfree : T.holder l with
              | some j =>
                  simp only [hl, hfree]
                  exact h
              | none =>
                  simp only [hl, hfree]
                  refine ⟨h.update_phase i _, h.store, ?_⟩
                  intro l' hl'
                  show Function.update S.holder l (some i) l' =
                    Function.update T.holder l (some i) l'
                  by_cases hll : l' = l
                  · rw [hll, Function.update_self, Function.update_self]
                  · rw [Function.update_of_ne hll, Function.update_of_ne hll]
                    exact h.holder l' hl'
  | returned a =>
      rw [hphase] at hsame
      simp only [System.step, hsame, hphase]
      exact h
  | running p =>
      rw [hphase] at hsame
      cases p with
      | call c next =>
          rw [hphase] at hpending
          cases hpending
      | done a =>
          simp only [System.step, hsame, hphase]
          refine ⟨h.update_phase i _, h.store, ?_⟩
          intro l hl
          show (if S.holder l = some i then none else S.holder l) = _
          rw [h.holder l hl]

theorem Alike.stepAs (h : Alike P S T) (hapart : P.Apart tasks) (hconfined : Confined P S)
    (hi : P.tasks i) (fate : Fate) :
    Alike P (stepAs tasks S (i, fate)) (stepAs tasks T (i, fate)) := by
  have hsame := h.phase i hi
  cases hpending : (T.phase i).isPending with
  | false =>
      rw [stepAs_of_not_call (hsame ▸ hpending), stepAs_of_not_call hpending]
      exact h.step hapart hi hpending
  | true =>
      obtain ⟨c, next, hphase⟩ := Phase.isPending_iff.mp hpending
      rw [hphase] at hsame
      rw [stepAs_of_call hsame, stepAs_of_call hphase]
      cases hconfined.within i _ hsame with
      | call hkey hnext =>
          have hmine : P.keys c.key := hkey.mpr hi
          refine ⟨?_, h.store.answerAs_snd hmine fate, h.holder⟩
          rw [h.store.answerAs_fst hmine fate]
          exact h.update_phase i _

theorem Alike.stepAs_left (h : Alike P S T) (hapart : P.Apart tasks) (hconfined : Confined P S)
    (hi : ¬ P.tasks i) (fate : Fate) : Alike P (System.stepAs tasks S (i, fate)) T := by
  cases hpending : (S.phase i).isPending with
  | true =>
      obtain ⟨c, next, hphase⟩ := Phase.isPending_iff.mp hpending
      rw [stepAs_of_call hphase]
      cases hconfined.within i _ hphase with
      | call hkey hnext =>
          exact ⟨h.update_phase_left hi _, h.store.answerAs_left (hkey.not.mpr hi) fate, h.holder⟩
  | false =>
      rw [stepAs_of_not_call hpending]
      have hmoves := moves_step tasks S i
      generalize System.step tasks S i = S' at hmoves
      cases hmoves with
      | stay => exact h
      | begin htask hguard hphase => exact ⟨h.update_phase_left hi _, h.store, h.holder⟩
      | @acquire t l htask hguard hphase hfree =>
          refine ⟨h.update_phase_left hi _, h.store, ?_⟩
          intro l' hl'
          have hll : l' ≠ l := fun hll => hi ((hapart.guard i t l htask hguard).mp (hll ▸ hl'))
          show Function.update S.holder l (some i) l' = _
          rw [Function.update_of_ne hll]
          exact h.holder l' hl'
      | answered hphase =>
          rw [hphase] at hpending
          cases hpending
      | finish hphase =>
          refine ⟨h.update_phase_left hi _, h.store, ?_⟩
          intro l hl
          have hother : S.holder l ≠ some i := fun hheld => hi ((hconfined.holder l i hheld).mp hl)
          show (if S.holder l = some i then none else S.holder l) = _
          rw [if_neg hother]
          exact h.holder l hl

/-- Without the steps of the others the share goes the same way. -/
theorem alike_runAs (hapart : P.Apart tasks) (mine : Nat → Bool)
    (hmine : ∀ i, mine i = true ↔ P.tasks i) (hconfined : Confined P S) (h : Alike P S T)
    (moves : List (Nat × Fate)) :
    Alike P (runAs tasks S moves) (runAs tasks T (moves.filter fun move => mine move.1)) := by
  induction moves generalizing S T with
  | nil => exact h
  | cons move moves ih =>
      have hnext := hconfined.stepAs hapart move.1 move.2
      by_cases hi : mine move.1 = true
      · rw [List.filter_cons_of_pos (by exact hi)]
        exact ih hnext (h.stepAs hapart hconfined ((hmine _).mp hi) move.2)
      · rw [List.filter_cons_of_neg (by exact hi)]
        exact ih hnext (h.stepAs_left hapart hconfined ((hmine _).not.mp hi) move.2)

end System

end Matinee.Store
