/-
# `Matinee.Proofs.Store.Promises` — what programs side by side can rely on

Some keys are written once: no program sets the text under one of them, and
`setIfAbsent` leaves a text that is there.  So once there is such a text it stays
(`Stays`), whatever is done in between, and this is all that a program has to know about
the others.

A promise of a program (`Program.Ensures`) is therefore a statement about it alone: it
sets none of these keys, and it ends as promised if between any two of its calls texts
are only added under them.  What each task promises by itself, all of them keep side by
side (`System.promised_run`).
-/
import Matinee.Proofs.Store.Runs

namespace Matinee.Store

variable {α β : Type} {keys : String → Prop}

/-- The texts under these keys stay. -/
def Stays (keys : String → Prop) (s t : Contents) : Prop :=
  ∀ key, keys key → ∀ text, s[key]? = some text → t[key]? = some text

theorem Stays.refl (s : Contents) : Stays keys s s := fun _ _ _ h => h

theorem Stays.trans {s t u : Contents} (h : Stays keys s t) (h' : Stays keys t u) :
    Stays keys s u := by
  intro key hkey text htext
  exact h' key hkey text (h key hkey text htext)

/-- The call does not replace a text under one of these keys. -/
def Call.Spares (keys : String → Prop) : Call → Prop
  | .set key _ => ¬ keys key
  | .get _ | .setIfAbsent _ _ => True

theorem Call.Spares.stays {c : Call} (h : c.Spares keys) (s : Contents) :
    Stays keys s (answer c s).2 := by
  intro key hkey text htext
  have hmem : key ∈ s := by
    rw [Std.ExtHashMap.mem_iff_isSome_getElem?, htext]
    rfl
  have hnot : c.writes key s = false := by
    cases c with
    | get k => rfl
    | set k value =>
        refine beq_eq_false_iff_ne.mpr ?_
        rintro rfl
        exact h hkey
    | setIfAbsent k value =>
        refine eq_false_of_ne_true fun hwrites => ?_
        obtain ⟨rfl, habsent⟩ := Call.writes_setIfAbsent_iff.mp hwrites
        exact habsent hmem
  rw [Call.getElem?_answer_of_not_writes hnot]
  exact htext

/-- No call of the program replaces a text under these keys, and if the texts there stay
between its calls, it ends with a result and a store that satisfy `post`. -/
def Program.Ensures (keys : String → Prop) (post : Contents → α → Prop) :
    Program α → Contents → Prop
  | .done a, s => post s a
  | .call c next, s => c.Spares keys ∧
      ∀ t, Stays keys s t → (next (.ok (answer c t).1)).Ensures keys post (answer c t).2

/-- What holds of a result still holds when more texts are there. -/
def Lasting (keys : String → Prop) (post : Contents → α → Prop) : Prop :=
  ∀ s t a, Stays keys s t → post s a → post t a

theorem Program.Ensures.mono {post : Contents → α → Prop} (hpost : Lasting keys post)
    {p : Program α} {s t : Contents} (h : p.Ensures keys post s) (ht : Stays keys s t) :
    p.Ensures keys post t := by
  cases p with
  | done a => exact hpost s t a ht h
  | call c next => exact ⟨h.1, fun u hu => h.2 u (ht.trans hu)⟩

theorem Program.Ensures.post {post post' : Contents → α → Prop} {p : Program α} {s : Contents}
    (h : p.Ensures keys post s) (hpost : ∀ t a, post t a → post' t a) : p.Ensures keys post' s := by
  induction p generalizing s with
  | done a => exact hpost s a h
  | call c next ih => exact ⟨h.1, fun t ht => ih _ (h.2 t ht)⟩

theorem Program.Ensures.map {f : α → β} {post : Contents → β → Prop} {p : Program α} {s : Contents}
    (h : p.Ensures keys (fun s a => post s (f a)) s) : (f <$> p).Ensures keys post s := by
  induction p generalizing s with
  | done a => exact h
  | call c next ih => exact ⟨h.1, fun t ht => ih _ (h.2 t ht)⟩

/-! ## Side by side -/

/-- What is left to do ends as promised, or has done so. -/
def Phase.Ensures (keys : String → Prop) (post : Contents → α → Prop) (p : Program α)
    (s : Contents) : Phase α → Prop
  | .waiting => p.Ensures keys post s
  | .running rest => rest.Ensures keys post s
  | .returned a => post s a

namespace System

variable {κ : Type}

/-- Each task is on its way to what it promises. -/
structure Promised (keys : String → Prop) (post : Nat → Contents → α → Prop)
    (tasks : List (Task κ α)) (S : System κ α) : Prop where
  task : ∀ i t, tasks[i]? = some t → (S.phase i).Ensures keys (post i) t.program S.store
  outside : ∀ i, tasks[i]? = none → S.phase i = .waiting

section

variable {post : Nat → Contents → α → Prop} {tasks : List (Task κ α)} {S : System κ α}

theorem Promised.advance (hpost : ∀ i, Lasting keys (post i)) (h : Promised keys post tasks S)
    {S' : System κ α} {i : Nat} {x : Phase α} {t : Task κ α} (htask : tasks[i]? = some t)
    (hphase : S'.phase = Function.update S.phase i x) (hstays : Stays keys S.store S'.store)
    (hx : x.Ensures keys (post i) t.program S'.store) : Promised keys post tasks S' where
  task := by
    intro j u hu
    rw [hphase]
    by_cases hji : j = i
    · subst hji
      obtain rfl : t = u := Option.some.inj (htask.symm.trans hu)
      rw [Function.update_self]
      exact hx
    · rw [Function.update_of_ne hji]
      have hj := h.task j u hu
      generalize S.phase j = y at hj
      cases y with
      | waiting => exact hj.mono (hpost j) hstays
      | running rest => exact Program.Ensures.mono (hpost j) hj hstays
      | returned a => exact hpost j _ _ a hstays hj
  outside := by
    intro j hj
    rw [hphase]
    by_cases hji : j = i
    · rw [hji, htask] at hj
      cases hj
    · rw [Function.update_of_ne hji]
      exact h.outside j hj

theorem Promised.exists_task (h : Promised keys post tasks S) {i : Nat} {p : Program α}
    (hphase : S.phase i = .running p) :
    ∃ t, tasks[i]? = some t ∧ p.Ensures keys (post i) S.store := by
  cases htask : tasks[i]? with
  | none =>
      rw [h.outside i htask] at hphase
      cases hphase
  | some t =>
      have hi := h.task i t htask
      rw [hphase] at hi
      exact ⟨t, rfl, hi⟩

variable [DecidableEq κ]

/-- What one step preserves. -/
theorem Promised.moves (hpost : ∀ i, Lasting keys (post i)) {S' : System κ α} {i : Nat}
    (h : Promised keys post tasks S) (hmoves : Moves tasks S i S') :
    Promised keys post tasks S' := by
  have hbegin : ∀ t, tasks[i]? = some t → S.phase i = .waiting →
      t.program.Ensures keys (post i) S.store := by
    intro t htask hphase
    have hi := h.task i t htask
    rw [hphase] at hi
    exact hi
  cases hmoves with
  | stay => exact h
  | begin htask _ hphase =>
      exact h.advance hpost htask rfl (Stays.refl _) (hbegin _ htask hphase)
  | acquire htask _ hphase _ =>
      exact h.advance hpost htask rfl (Stays.refl _) (hbegin _ htask hphase)
  | answered hphase =>
      obtain ⟨t, htask, hspares, hnext⟩ := h.exists_task hphase
      exact h.advance hpost htask rfl (hspares.stays S.store) (hnext S.store (Stays.refl _))
  | finish hphase =>
      obtain ⟨t, htask, hdone⟩ := h.exists_task hphase
      exact h.advance hpost htask rfl (Stays.refl _) hdone

/-- What each task promises by itself is kept behind every schedule. -/
theorem promised_run (hpost : ∀ i, Lasting keys (post i)) {s : Contents}
    (htasks : ∀ i (t : Task κ α), tasks[i]? = some t → t.program.Ensures keys (post i) s)
    (schedule : List Nat) : Promised keys post tasks (run tasks (start s) schedule) :=
  run_induction ⟨htasks, fun _ _ => rfl⟩ (fun _ _ _ h hmoves => h.moves hpost hmoves) schedule

theorem phase_run_of_returned {i : Nat} {a : α} (h : S.phase i = .returned a)
    (schedule : List Nat) : (run tasks S schedule).phase i = .returned a := by
  refine run_induction (P := fun S => S.phase i = .returned a) h ?_ schedule
  intro S S' j hi hmoves
  have hother : ∀ {x : Phase α}, (∀ a, S.phase j ≠ .returned a) →
      Function.update S.phase j x i = .returned a := by
    intro x hnot
    have hij : i ≠ j := by
      rintro rfl
      exact hnot a hi
    rw [Function.update_of_ne hij]
    exact hi
  cases hmoves with
  | stay => exact hi
  | begin _ _ hphase => exact hother (by simp [hphase])
  | acquire _ _ hphase _ => exact hother (by simp [hphase])
  | answered hphase => exact hother (by simp [hphase])
  | finish hphase => exact hother (by simp [hphase])

end

end System

end Matinee.Store
