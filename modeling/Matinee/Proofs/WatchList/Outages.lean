/-
# `Matinee.Proofs.WatchList.Outages` — a change that is not made leaves no trace

Calls to the store may fail, and a text may be stored that is no list of movies.  An
operation reads once, and it writes at most once, as the last thing that it does; so
either the new list is stored and the reply says so, or the store is as it was.  The
ways in which an operation can end are listed once (`Ends`), and the rest is read off
them.

A call that fails or changes nothing therefore leaves nothing behind for those that
follow it: without such calls a run has the same replies to the others, and leaves the
same store (`failed_calls_leave_no_trace`).
-/
import Matinee.Proofs.WatchList.Sequential

namespace Matinee.Store

variable {α : Type}

/-- A program on a store some calls of which fail. -/
def Program.under (outage : Outage) (p : Program α) (s : Contents) : α × Contents :=
  Program.run (m := StateM Contents) (answerUnder outage) p s

/-- The calls that a program makes on such a store. -/
def Program.callsUnder (outage : Outage) : Program α → Contents → List Call
  | .done _, _ => []
  | .call c next, s =>
    let (r, s') := answerUnder outage c s
    c :: (next r).callsUnder outage s'

theorem Program.under_call (outage : Outage) (c : Call) (next : Except Failure c.Answer → Program α)
    (s : Contents) :
    (Program.call c next).under outage s =
      (next (answerUnder outage c s).1).under outage (answerUnder outage c s).2 := rfl

end Matinee.Store

namespace Matinee.WatchList

open Matinee.Store (Call Contents Outage Program answerUnder)

theorem internal_of_read {text : Option String} {f : Failure} (h : read text = .error f) :
    ∃ what, f = .internal what := by
  cases text with
  | none => cases h
  | some text =>
      rw [read] at h
      split at h
      · cases h
      · injection h with h
        exact ⟨_, h.symm⟩

namespace Operation

/-- The operation on a store some calls of which fail. -/
def serveUnder (w : WatchList) (o : Operation) (outage : Outage) (s : Contents) :
    Except Failure Reply × Contents :=
  (o.program w).under outage s

/-- The calls that it makes there. -/
def callsUnder (w : WatchList) (o : Operation) (outage : Outage) (s : Contents) : List Call :=
  (o.program w).callsUnder outage s

/-- The answer to the first of them. -/
def text (w : WatchList) (outage : Outage) (s : Contents) : Except Failure (Option String) :=
  match outage (.get w.listKey) with
  | some f => .error f
  | none => .ok s[w.listKey]?

/-- The list as it is found there, or the failure to find it. -/
def found (w : WatchList) (outage : Outage) (s : Contents) : Except Failure (List Movie) :=
  (text w outage s).bind read

/-- All ways in which an operation ends: the calls it has made, its reply, and the store
behind it. -/
inductive Ends (w : WatchList) (o : Operation) (outage : Outage) (s : Contents) :
    List Call → Except Failure Reply → Contents → Prop where
  /-- There is no list. -/
  | lost (f : Failure) (hfound : found w outage s = .error f) :
      Ends w o outage s [.get w.listKey] (.error f) s
  /-- The list need not change; readers take a failure within for an empty one. -/
  | told (ms : List Movie) (hfound : found w outage s = .ok ms ∨ o.isWrite = false)
      (hedit : o.edit ms = none) :
      Ends w o outage s [.get w.listKey] (.ok (o.onList ms).1) s
  /-- The new list cannot be stored. -/
  | refused (ms ms' : List Movie) (f : Failure) (hfound : found w outage s = .ok ms)
      (hedit : o.edit ms = some ms') :
      Ends w o outage s [.get w.listKey, .set w.listKey (write ms')] (.error f) s
  | stored (ms ms' : List Movie) (hfound : found w outage s = .ok ms)
      (hedit : o.edit ms = some ms') :
      Ends w o outage s [.get w.listKey, .set w.listKey (write ms')] (.ok (.flag true))
        (s.insert w.listKey (write ms'))

theorem answerUnder_get (w : WatchList) (outage : Outage) (s : Contents) :
    answerUnder outage (.get w.listKey) s = (text w outage s, s) := by
  simp only [answerUnder, text]
  cases outage (.get w.listKey) <;> rfl

theorem serveUnder_eq (w : WatchList) (o : Operation) (outage : Outage) (s : Contents) :
    o.serveUnder w outage s = (o.next w (text w outage s)).under outage s := by
  rw [serveUnder, program_eq, Program.under_call, answerUnder_get]

theorem callsUnder_eq (w : WatchList) (o : Operation) (outage : Outage) (s : Contents) :
    o.callsUnder w outage s =
      .get w.listKey :: (o.next w (text w outage s)).callsUnder outage s := by
  rw [callsUnder, program_eq, Program.callsUnder, answerUnder_get]

theorem edit_of_not_isWrite {o : Operation} (h : o.isWrite = false) (ms : List Movie) :
    o.edit ms = none := by
  cases o with
  | add m => cases h
  | remove id => cases h
  | contains id => rfl
  | entries => rfl

theorem not_isWrite_of_forgives {o : Operation} {f : Failure} (h : o.forgives f = true) :
    o.isWrite = false := by
  cases o with
  | add m => cases h
  | remove id => cases h
  | contains id => rfl
  | entries => rfl

theorem ends_rest {w : WatchList} {o : Operation} {outage : Outage} {s : Contents} (ms : List Movie)
    (hfound : found w outage s = .ok ms ∨ o.isWrite = false) :
    Ends w o outage s (.get w.listKey :: (o.rest w ms).callsUnder outage s)
      ((o.rest w ms).under outage s).1 ((o.rest w ms).under outage s).2 := by
  rw [rest]
  cases hedit : o.edit ms with
  | none => exact .told ms hfound hedit
  | some ms' =>
      have hfound : found w outage s = .ok ms := hfound.resolve_right fun hread => by
        rw [edit_of_not_isWrite hread] at hedit
        cases hedit
      simp only [Program.callsUnder, Program.under_call, answerUnder]
      cases outage (.set w.listKey (write ms')) with
      | some f => exact .refused ms ms' f hfound hedit
      | none => exact .stored ms ms' hfound hedit

theorem ends (w : WatchList) (o : Operation) (outage : Outage) (s : Contents) :
    Ends w o outage s (o.callsUnder w outage s) (o.serveUnder w outage s).1
      (o.serveUnder w outage s).2 := by
  rw [serveUnder_eq, callsUnder_eq, next]
  cases hfound : (text w outage s).bind read with
  | ok ms => exact ends_rest ms (.inl hfound)
  | error f =>
      cases hforgives : o.forgives f with
      | true =>
          simp only [hforgives, if_true]
          exact ends_rest [] (.inr (not_isWrite_of_forgives hforgives))
      | false =>
          simp only [hforgives, if_false, Bool.false_eq_true]
          exact .lost f hfound

/-! ## One write -/

theorem onList_of_isWrite {o : Operation} {ms : List Movie} (hwrite : o.isWrite = true)
    (hedit : o.edit ms = none) : (o.onList ms).1 = .flag false := by
  cases o with
  | add m =>
      simp only [edit, any_id, decide_eq_true_eq] at hedit
      split at hedit
      · rename_i hthere
        rw [onList, if_pos hthere]
      · cases hedit
  | remove id =>
      simp only [edit, filter_id, beq_iff_eq, length_filter_id_iff] at hedit
      split at hedit
      · rename_i hnone
        rw [onList, decide_eq_false hnone]
      · cases hedit
  | contains id => cases hwrite
  | entries => cases hwrite

/-- A write is made as a whole or not at all. -/
structure AllOrNothing (w : WatchList) (o : Operation) (outage : Outage) (s : Contents)
    (calls : List Call) (reply : Except Failure Reply) (s' : Contents) : Prop where
  replies : (∃ f, reply = .error f) ∨ ∃ changed, reply = .ok (.flag changed)
  unchanged : (∃ f, reply = .error f) ∨ reply = .ok (.flag false) → s' = s
  /-- A text that is no list of movies is only looked at. -/
  unreadable : ∀ f, read s[w.listKey]? = .error f → (∃ what, f = .internal what) ∧
    reply = .error ((outage (.get w.listKey)).getD f) ∧ calls = [.get w.listKey]
  /-- The text of the list is replaced by that of the new list, and no other text. -/
  changed : reply = .ok (.flag true) → ∃ ms, found w outage s = .ok ms ∧
    s' = s.insert w.listKey (write (o.onList ms).2) ∧
      ∀ key, key ≠ w.listKey → s'[key]? = s[key]?

section

variable {w : WatchList} {o : Operation} {outage : Outage} {s s' : Contents} {calls : List Call}
  {reply : Except Failure Reply}

theorem found_of_unreadable {f : Failure} (h : read s[w.listKey]? = .error f) :
    found w outage s = .error ((outage (.get w.listKey)).getD f) := by
  rw [found, text]
  cases outage (.get w.listKey) with
  | some g => rfl
  | none => exact h

theorem Ends.allOrNothing (h : Ends w o outage s calls reply s') (hwrite : o.isWrite = true) :
    AllOrNothing w o outage s calls reply s' := by
  cases h with
  | lost f hfound =>
      refine ⟨.inl ⟨f, rfl⟩, fun _ => rfl, fun g hg => ?_, nofun⟩
      rw [found_of_unreadable hg] at hfound
      injection hfound with hfound
      exact ⟨internal_of_read hg, congrArg Except.error hfound.symm, rfl⟩
  | told ms hfound hedit =>
      rw [onList_of_isWrite hwrite hedit]
      refine ⟨.inr ⟨false, rfl⟩, fun _ => rfl, fun g hg => ?_, nofun⟩
      rw [found_of_unreadable hg, hwrite] at hfound
      exact absurd hfound (by simp)
  | refused ms ms' f hfound hedit =>
      refine ⟨.inl ⟨f, rfl⟩, fun _ => rfl, fun g hg => ?_, nofun⟩
      rw [found_of_unreadable hg] at hfound
      cases hfound
  | stored ms ms' hfound hedit =>
      refine ⟨.inr ⟨true, rfl⟩, fun hquiet => ?_, fun g hg => ?_, fun _ => ⟨ms, hfound, ?_, ?_⟩⟩
      · rcases hquiet with ⟨f, hf⟩ | hf <;> cases hf
      · rw [found_of_unreadable hg] at hfound
        cases hfound
      · rw [onList_of_edit hedit]
      · intro key hkey
        rw [Std.ExtHashMap.getElem?_insert, if_neg (by simpa using Ne.symm hkey)]

/-! ## Runs -/

/-- The reply of a call that has failed, or has changed or found nothing. -/
def isIdle : Except Failure Reply → Bool
  | .error _ => true
  | .ok (.flag changed) => !changed
  | .ok (.movies _) => false

theorem Ends.eq_of_isIdle (h : Ends w o outage s calls reply s') (hidle : isIdle reply = true) :
    s' = s := by
  cases h with
  | lost f hfound => rfl
  | told ms hfound hedit => rfl
  | refused ms ms' f hfound hedit => rfl
  | stored ms ms' hfound hedit => cases hidle

end

/-- Calls one after the other, each with its own outage: their replies, and the store
behind them. -/
def serveAllUnder (w : WatchList) :
    List (Operation × Outage) → Contents → List (Except Failure Reply) × Contents
  | [], s => ([], s)
  | (o, outage) :: calls, s =>
    let (reply, s') := o.serveUnder w outage s
    let (replies, s'') := serveAllUnder w calls s'
    (reply :: replies, s'')

/-- The calls of a run that are not idle, with their replies. -/
def effective (w : WatchList) (calls : List (Operation × Outage)) (s : Contents) :
    List ((Operation × Outage) × Except Failure Reply) :=
  (calls.zip (serveAllUnder w calls s).1).filter fun call => !isIdle call.2

theorem serveAllUnder_cons (w : WatchList) (o : Operation) (outage : Outage)
    (calls : List (Operation × Outage)) (s : Contents) :
    serveAllUnder w ((o, outage) :: calls) s =
      ((o.serveUnder w outage s).1 :: (serveAllUnder w calls (o.serveUnder w outage s).2).1,
        (serveAllUnder w calls (o.serveUnder w outage s).2).2) := rfl

/-- Idle calls can be left out of a run. -/
theorem serveAllUnder_effective (w : WatchList) (calls : List (Operation × Outage)) (s : Contents) :
    serveAllUnder w ((effective w calls s).map Prod.fst) s =
      ((effective w calls s).map Prod.snd, (serveAllUnder w calls s).2) := by
  induction calls generalizing s with
  | nil => rfl
  | cons call calls ih =>
      obtain ⟨o, outage⟩ := call
      have ih := ih (o.serveUnder w outage s).2
      rw [effective, serveAllUnder_cons, List.zip_cons_cons]
      cases hidle : isIdle (o.serveUnder w outage s).1 with
      | true =>
          have hsame := (ends w o outage s).eq_of_isIdle hidle
          rw [List.filter_cons_of_neg (by simp [hidle])]
          rw [hsame] at ih ⊢
          exact ih
      | false =>
          rw [List.filter_cons_of_pos (by simp [hidle]), List.map_cons, List.map_cons,
            serveAllUnder_cons]
          rw [effective] at ih
          rw [ih]

/-- **A call that fails leaves no trace.**  An addition or removal that fails, or says
that it has changed nothing, leaves every text as it was.  Where the stored text is no
list of movies it fails with an internal failure, if not already for lack of the text,
and writes nothing; if it says that it has changed the list, that is the one text it has
written.  And a run without its failed calls and those that said no has the same replies
to the others, and leaves the same texts, whichever calls to the store fail. -/
theorem failed_calls_leave_no_trace (w : WatchList) :
    (∀ (o : Operation) (outage : Outage) (s : Contents), o.isWrite = true →
      AllOrNothing w o outage s (o.callsUnder w outage s) (o.serveUnder w outage s).1
        (o.serveUnder w outage s).2) ∧
      ∀ (calls : List (Operation × Outage)) (s : Contents),
        serveAllUnder w ((effective w calls s).map Prod.fst) s =
          ((effective w calls s).map Prod.snd, (serveAllUnder w calls s).2) :=
  ⟨fun o outage s => (ends w o outage s).allOrNothing, serveAllUnder_effective w⟩

/-- A removal from a text that is no list of movies, on a store that cannot be written. -/
theorem failed_calls_leave_no_trace_broken :
    let w : WatchList := ⟨some "ana"⟩
    let full : Outage := fun
      | .set _ _ => some (.store "out of space")
      | _ => none
    let s : Contents := (∅ : Contents).insert w.listKey "[\x7b\"movieId\":348"
    (remove 348).isWrite = true ∧
      ((remove 348).serveUnder w full s).1 = .error (unreadable .malformed) ∧
      ((remove 348).serveUnder w full s).2 = s ∧
      (remove 348).callsUnder w full s = [.get w.listKey] := by
  intro w full s
  have hread : read s[w.listKey]? = .error (unreadable .malformed) := by
    rw [Std.ExtHashMap.getElem?_insert_self]
    decide +kernel
  have hwhole := (failed_calls_leave_no_trace w).1 (remove 348) full s rfl
  obtain ⟨-, hreply, hcalls⟩ := hwhole.unreadable _ hread
  exact ⟨rfl, hreply, hwhole.unchanged (.inl ⟨_, hreply⟩), hcalls⟩

end Operation

end Matinee.WatchList
