/-
# `Matinee.Proofs.WatchList.AccountDate` — the date of an account is written once

No lock is held around the date.  Whoever asks for it may look, find nothing, write the
present and look again, and other calls may come between any two of these steps.  But a
write succeeds only where nothing is stored, so the store has the text that it had in the
beginning or the one of a single writer (`Stored`), and whoever finds a text finds that
one.

The invariant (`Kept`) says of each call how far it has come, and of a call that has its
reply that the reply is correct.  Once there is a text no step takes it away, so what is
known of the other calls stays.
-/
import Mathlib.Data.List.Induction
import Matinee.Proofs.Instant.RoundTrip
import Matinee.Proofs.Store.Runs
import Matinee.WatchList

namespace Matinee.WatchList

open Matinee.Store (Call Contents Program System Task)

/-- A call about the date of the account. -/
inductive DateCall where
  /-- Asks for the date; the clock of the caller shows `now`. -/
  | created (now : Instant)
  | record (date : Instant)
deriving DecidableEq

inductive DateReply where
  | date (d : Instant)
  | recorded (b : Bool)
deriving DecidableEq

namespace DateCall

/-! ## Programs -/

/-- The call as the store sees it. -/
def program (w : WatchList) : DateCall → Program (Except Failure DateReply)
  | .created now => (DateReply.date <$> w.createdAt now : Store.Action DateReply)
  | .record date => (DateReply.recorded <$> w.setCreatedAt date : Store.Action DateReply)

/-- The instant that the call would write. -/
def instant : DateCall → Instant
  | .created now => now
  | .record date => date

/-- What it would write. -/
def text (c : DateCall) : String := String.ofList c.instant.millisText

/-- The date of a stored text; what cannot be read, or is not there, is taken for the
present. -/
def dated (now : Instant) (text : Option String) : DateReply :=
  .date ((text.bind fun t => Instant.readRfc3339 t.toList).getD now)

/-- Looks for what is stored in the end. -/
def readBack (key : String) (now : Instant) : Program (Except Failure DateReply) :=
  .call (.get key) fun r => .done (r.map (dated now))

/-- Nothing has been found. -/
def put (key : String) (now : Instant) : Program (Except Failure DateReply) :=
  .call (.setIfAbsent key (created now).text) fun
    | .ok _ => readBack key now
    | .error f => .done (.error f)

/-- The calls to the store. -/
def steps (key : String) : DateCall → Program (Except Failure DateReply)
  | .created now => .call (.get key) fun
    | .ok none => put key now
    | .ok (some t) => .done (.ok (dated now (some t)))
    | .error f => .done (.error f)
  | .record date => .call (.setIfAbsent key (record date).text) fun r =>
    .done (r.map .recorded)

theorem program_eq (w : WatchList) (c : DateCall) : c.program w = c.steps w.dateKey := by
  cases c with
  | record date =>
      refine congrArg (Program.call (.setIfAbsent w.dateKey _)) (funext fun r => ?_)
      cases r <;> rfl
  | created now =>
      refine congrArg (Program.call (.get w.dateKey)) (funext fun r => ?_)
      cases r with
      | error f => rfl
      | ok found =>
          cases found with
          | some t => rfl
          | none =>
              refine congrArg (Program.call (.setIfAbsent w.dateKey _)) (funext fun r => ?_)
              cases r with
              | error f => rfl
              | ok b =>
                  refine congrArg (Program.call (.get w.dateKey)) (funext fun r => ?_)
                  cases r <;> rfl

/-! ## What is known of a call -/

/-- The instant is the one that the stored text denotes. -/
def Denotes (key : String) (s : Contents) (d : Instant) : Prop :=
  ∃ t, s[key]? = some t ∧ Instant.readRfc3339 t.toList = some d

/-- A reply as it should be, by the store and by whether the call has written. -/
def Correct (key : String) (s : Contents) (wrote : Prop) :
    DateCall → Except Failure DateReply → Prop
  | .created _, r => ∃ d, r = .ok (.date d) ∧ Denotes key s d
  | .record _, r => ∃ b, r = .ok (.recorded b) ∧ (b = true ↔ wrote)

/-- How far a call has come. -/
inductive Stage (key : String) (s : Contents) (wrote : Prop) :
    DateCall → Store.Phase (Except Failure DateReply) → Prop where
  | waiting {c : DateCall} (hnot : ¬ wrote) : Stage key s wrote c .waiting
  | begun {c : DateCall} (hnot : ¬ wrote) : Stage key s wrote c (.running (c.steps key))
  | missed {now : Instant} (hnot : ¬ wrote) :
      Stage key s wrote (.created now) (.running (put key now))
  | settled {now : Instant} (hkey : key ∈ s) :
      Stage key s wrote (.created now) (.running (readBack key now))
  | replied {c : DateCall} {r : Except Failure DateReply} (hreply : Correct key s wrote c r) :
      Stage key s wrote c (.running (.done r))
  | returned {c : DateCall} {r : Except Failure DateReply} (hreply : Correct key s wrote c r) :
      Stage key s wrote c (.returned r)

/-- The text under the key stays. -/
def Keeps (key : String) (s s' : Contents) : Prop := ∀ t, s[key]? = some t → s'[key]? = some t

section Stage

variable {key : String} {s s' : Contents} {wrote wrote' : Prop} {c : DateCall}

theorem Denotes.unique {d d' : Instant} (h : Denotes key s d) (h' : Denotes key s d') : d = d' := by
  obtain ⟨t, ht, hd⟩ := h
  obtain ⟨t', ht', hd'⟩ := h'
  obtain rfl : t = t' := Option.some.inj (ht.symm.trans ht')
  exact Option.some.inj (hd.symm.trans hd')

theorem mem_iff_exists_text : key ∈ s ↔ ∃ t, s[key]? = some t := by
  rw [Std.ExtHashMap.mem_iff_isSome_getElem?, Option.isSome_iff_exists]

theorem Keeps.mem (h : Keeps key s s') (hkey : key ∈ s) : key ∈ s' := by
  obtain ⟨t, ht⟩ := mem_iff_exists_text.mp hkey
  exact mem_iff_exists_text.mpr ⟨t, h t ht⟩

theorem Correct.mono {r : Except Failure DateReply} (h : Correct key s wrote c r)
    (hkeeps : Keeps key s s') (hwrote : wrote ↔ wrote') : Correct key s' wrote' c r := by
  cases c with
  | created now =>
      obtain ⟨d, hr, t, ht, hd⟩ := h
      exact ⟨d, hr, t, hkeeps t ht, hd⟩
  | record date =>
      obtain ⟨b, hr, hb⟩ := h
      exact ⟨b, hr, hb.trans hwrote⟩

theorem Stage.mono {x : Store.Phase (Except Failure DateReply)} (h : Stage key s wrote c x)
    (hkeeps : Keeps key s s') (hwrote : wrote ↔ wrote') : Stage key s' wrote' c x := by
  cases h with
  | waiting hnot => exact .waiting (hwrote.not.mp hnot)
  | begun hnot => exact .begun (hwrote.not.mp hnot)
  | missed hnot => exact .missed (hwrote.not.mp hnot)
  | settled hkey => exact .settled (hkeeps.mem hkey)
  | replied hreply => exact .replied (hreply.mono hkeeps hwrote)
  | returned hreply => exact .returned (hreply.mono hkeeps hwrote)

end Stage

/-! ## What every run keeps -/

/-- Calls about one date with instants of the years from 0 to 9999, and a store whose text
for the date can be read if there is one. -/
structure Fit (key : String) (cs : List (WatchList × DateCall)) (s : Contents) : Prop where
  dateKey : ∀ c ∈ cs, c.1.dateKey = key
  year : ∀ c ∈ cs, 0 ≤ c.2.instant.date.year ∧ c.2.instant.date.year ≤ 9999
  readable : ∀ t, s[key]? = some t → ∃ d, Instant.readRfc3339 t.toList = some d

/-- The store, by the calls that have written. -/
inductive Stored (key : String) (cs : List (WatchList × DateCall)) (s : Contents) :
    List Nat → Contents → Prop where
  | untouched : Stored key cs s [] s
  | written {i : Nat} {c : WatchList × DateCall} (hcall : cs[i]? = some c) (hnew : key ∉ s) :
      Stored key cs s [i] (s.insert key c.2.text)

/-- The calls take no lock. -/
def tasks (cs : List (WatchList × DateCall)) : List (Task Unit (Except Failure DateReply)) :=
  cs.map fun c => ⟨none, c.2.program c.1⟩

/-- The invariant of all runs. -/
structure Kept (key : String) (cs : List (WatchList × DateCall)) (s : Contents)
    (ws : List Nat) (S : System Unit (Except Failure DateReply)) : Prop where
  stored : Stored key cs s ws S.store
  call : ∀ i c, cs[i]? = some c → Stage key S.store (i ∈ ws) c.2 (S.phase i)
  outside : ∀ i, cs[i]? = none → S.phase i = .waiting

section Kept

variable {key : String} {cs : List (WatchList × DateCall)} {s s' : Contents}
variable {ws ws' : List Nat} {S S' : System Unit (Except Failure DateReply)}
variable {i : Nat} {c : WatchList × DateCall}

theorem getElem?_tasks (cs : List (WatchList × DateCall)) (i : Nat) :
    (tasks cs)[i]? = cs[i]?.map fun c => ⟨none, c.2.program c.1⟩ := List.getElem?_map

theorem Fit.read_text (h : Fit key cs s) (hcall : cs[i]? = some c) :
    Instant.readRfc3339 c.2.text.toList = some c.2.instant.shown := by
  rw [text, String.toList_ofList]
  exact Instant.readRfc3339_millisText (h.year c (List.mem_of_getElem? hcall))

theorem Stored.readable (h : Stored key cs s ws s') (hfit : Fit key cs s) {t : String}
    (ht : s'[key]? = some t) : ∃ d, Instant.readRfc3339 t.toList = some d := by
  cases h with
  | untouched => exact hfit.readable t ht
  | written hcall hnew =>
      rw [Std.ExtHashMap.getElem?_insert_self] at ht
      exact ⟨_, Option.some.inj ht ▸ hfit.read_text hcall⟩

/-- Only as long as nobody has written can there be nothing. -/
theorem Stored.of_not_mem (h : Stored key cs s ws s') (hnot : key ∉ s') :
    ws = [] ∧ s' = s := by
  cases h with
  | untouched => exact ⟨rfl, rfl⟩
  | written hcall hnew => exact absurd Std.ExtHashMap.mem_insert_self hnot

theorem Stored.correct_found (h : Stored key cs s ws s') (hfit : Fit key cs s) {t : String}
    (ht : s'[key]? = some t) (now : Instant) (wrote : Prop) :
    Correct key s' wrote (.created now) (.ok (dated now (some t))) := by
  obtain ⟨d, hd⟩ := h.readable hfit ht
  refine ⟨d, ?_, t, ht, hd⟩
  rw [dated, Option.bind_some, hd, Option.getD_some]

theorem Kept.advance (h : Kept key cs s ws S) (hcall : cs[i]? = some c)
    (hstored : Stored key cs s ws' S'.store) (hkeeps : Keeps key S.store S'.store)
    (hwriters : ∀ j, j ≠ i → (j ∈ ws ↔ j ∈ ws'))
    {x : Store.Phase (Except Failure DateReply)} (hphase : S'.phase = Function.update S.phase i x)
    (hstage : Stage key S'.store (i ∈ ws') c.2 x) : Kept key cs s ws' S' where
  stored := hstored
  call := by
    intro j c' hj
    rw [hphase]
    by_cases hji : j = i
    · subst hji
      obtain rfl : c = c' := Option.some.inj (hcall.symm.trans hj)
      rw [Function.update_self]
      exact hstage
    · rw [Function.update_of_ne hji]
      exact (h.call j c' hj).mono hkeeps (hwriters j hji)
  outside := by
    intro j hj
    rw [hphase]
    by_cases hji : j = i
    · rw [hji, hcall] at hj
      cases hj
    · rw [Function.update_of_ne hji]
      exact h.outside j hj

theorem append_of_not_wrote (h : S.wrote key i = false) :
    ws ++ (if S.wrote key i then [i] else []) = ws := by
  rw [h, if_neg Bool.false_ne_true, List.append_nil]

theorem Kept.stay (h : Kept key cs s ws S) (hstep : S.step (tasks cs) i = S)
    (hwrote : S.wrote key i = false) :
    Kept key cs s (ws ++ if S.wrote key i then [i] else []) (S.step (tasks cs) i) := by
  rw [append_of_not_wrote hwrote, hstep]
  exact h

theorem Kept.enter (h : Kept key cs s ws S) (hfit : Fit key cs s) (hcall : cs[i]? = some c)
    (hphase : S.phase i = .waiting) (hnot : i ∉ ws) :
    Kept key cs s (ws ++ if S.wrote key i then [i] else []) (S.step (tasks cs) i) := by
  have hwrote : S.wrote key i = false := by rw [System.wrote, hphase]
  have htask : (tasks cs)[i]? = some ⟨none, c.2.steps key⟩ := by
    rw [getElem?_tasks, hcall, Option.map_some, program_eq,
      hfit.dateKey c (List.mem_of_getElem? hcall)]
  have hstep : S.step (tasks cs) i =
      { S with phase := Function.update S.phase i (.running (c.2.steps key)) } := by
    simp only [System.step, hphase, htask, System.enter]
  rw [append_of_not_wrote hwrote, hstep]
  exact h.advance hcall h.stored (fun _ => id) (fun _ _ => Iff.rfl) rfl (.begun hnot)

theorem Kept.finish (h : Kept key cs s ws S) (hcall : cs[i]? = some c)
    {r : Except Failure DateReply} (hphase : S.phase i = .running (.done r))
    (hreply : Correct key S.store (i ∈ ws) c.2 r) :
    Kept key cs s (ws ++ if S.wrote key i then [i] else []) (S.step (tasks cs) i) := by
  have hwrote : S.wrote key i = false := by rw [System.wrote, hphase]
  have hstep : S.step (tasks cs) i =
      { S with
        phase := Function.update S.phase i (.returned r)
        holder := fun l => if S.holder l = some i then none else S.holder l } := by
    rw [System.step, hphase]
  rw [append_of_not_wrote hwrote, hstep]
  exact h.advance hcall h.stored (fun _ => id) (fun _ _ => Iff.rfl) rfl (.returned hreply)

theorem Kept.look (h : Kept key cs s ws S) (hcall : cs[i]? = some c)
    {next : Except Failure (Option String) → Program (Except Failure DateReply)}
    (hphase : S.phase i = .running (.call (.get key) next))
    (hstage : Stage key S.store (i ∈ ws) c.2 (.running (next (.ok S.store[key]?)))) :
    Kept key cs s (ws ++ if S.wrote key i then [i] else []) (S.step (tasks cs) i) := by
  have hwrote : S.wrote key i = false := by
    rw [System.wrote, hphase]
    rfl
  have hstep : S.step (tasks cs) i =
      { S with phase := Function.update S.phase i (.running (next (.ok S.store[key]?))) } := by
    rw [System.step, hphase]
    rfl
  rw [append_of_not_wrote hwrote, hstep]
  exact h.advance hcall h.stored (fun _ => id) (fun _ _ => Iff.rfl) rfl hstage

theorem Kept.put (h : Kept key cs s ws S) (hcall : cs[i]? = some c) (hnot : i ∉ ws)
    {next : Except Failure Bool → Program (Except Failure DateReply)}
    (hphase : S.phase i = .running (.call (.setIfAbsent key c.2.text) next))
    (hstage : ∀ (b : Bool) (s' : Contents), key ∈ s' →
      Stage key s' (b = true) c.2 (.running (next (.ok b)))) :
    Kept key cs s (ws ++ if S.wrote key i then [i] else []) (S.step (tasks cs) i) := by
  have hwrote : S.wrote key i = (Call.setIfAbsent key c.2.text).writes key S.store := by
    rw [System.wrote, hphase]
  have hstep : S.step (tasks cs) i =
      { S with
        phase := Function.update S.phase i
          (.running (next (.ok (Store.answer (.setIfAbsent key c.2.text) S.store).1)))
        store := (Store.answer (.setIfAbsent key c.2.text) S.store).2 } := by
    rw [System.step, hphase]
  by_cases hkey : key ∈ S.store
  · have hnone : (Call.setIfAbsent key c.2.text).writes key S.store = false :=
      eq_false_of_ne_true fun h => (Call.writes_setIfAbsent_iff.mp h).2 hkey
    rw [Store.answer, if_pos hkey] at hstep
    rw [append_of_not_wrote (hwrote.trans hnone), hstep]
    refine h.advance hcall h.stored (fun _ => id) (fun _ _ => Iff.rfl) rfl ?_
    exact (hstage false S.store hkey).mono (fun _ => id) (iff_of_false Bool.false_ne_true hnot)
  · have hone := hwrote.trans (Call.writes_setIfAbsent_iff.mpr ⟨rfl, hkey⟩)
    obtain ⟨rfl, hstore⟩ := h.stored.of_not_mem hkey
    rw [Store.answer, if_neg hkey] at hstep
    rw [if_pos hone, hstep, List.nil_append]
    refine h.advance hcall ?_ ?_ ?_ rfl ?_
    · rw [hstore] at hkey ⊢
      exact .written hcall hkey
    · intro t ht
      exact absurd (mem_iff_exists_text.mpr ⟨t, ht⟩) hkey
    · intro j hj
      exact iff_of_false List.not_mem_nil fun h => hj (List.mem_singleton.mp h)
    · exact (hstage true _ Std.ExtHashMap.mem_insert_self).mono (fun _ => id)
        (iff_of_true rfl (List.mem_singleton.mpr rfl))

/-- What one step preserves. -/
theorem Kept.step (h : Kept key cs s ws S) (hfit : Fit key cs s) (i : Nat) :
    Kept key cs s (ws ++ if S.wrote key i then [i] else []) (S.step (tasks cs) i) := by
  cases hcall : cs[i]? with
  | none =>
      have hphase := h.outside i hcall
      refine h.stay ?_ (by rw [System.wrote, hphase])
      simp only [System.step, hphase, getElem?_tasks, hcall, Option.map_none]
  | some c =>
      obtain ⟨w, c⟩ := c
      have hstage : Stage key S.store (i ∈ ws) c (S.phase i) := h.call i (w, c) hcall
      generalize hphase : S.phase i = x at hstage
      cases hstage with
      | waiting hnot => exact h.enter hfit hcall hphase hnot
      | begun hnot =>
          cases c with
          | created now =>
              refine h.look hcall hphase ?_
              cases hfound : S.store[key]? with
              | none => exact .missed hnot
              | some t => exact .replied (h.stored.correct_found hfit hfound now _)
          | record date =>
              refine h.put hcall hnot hphase ?_
              intro b s' _
              exact .replied ⟨b, rfl, Iff.rfl⟩
      | missed hnot =>
          refine h.put hcall hnot hphase ?_
          intro b s' hkey
          exact .settled hkey
      | settled hkey =>
          refine h.look hcall hphase ?_
          obtain ⟨t, ht⟩ := mem_iff_exists_text.mp hkey
          rw [ht]
          exact .replied (h.stored.correct_found hfit ht _ _)
      | replied hreply => exact h.finish hcall hphase hreply
      | returned hreply => exact h.stay (by rw [System.step, hphase]) (by rw [System.wrote, hphase])

end Kept

/-! ## All runs -/

/-- Calls about the date, behind a schedule. -/
def calls (cs : List (WatchList × DateCall)) (s : Contents) (schedule : List Nat) :
    System Unit (Except Failure DateReply) :=
  System.run (tasks cs) (System.start s) schedule

/-- The calls that write the date. -/
def writers (key : String) (cs : List (WatchList × DateCall)) (s : Contents)
    (schedule : List Nat) : List Nat :=
  System.writers (tasks cs) key (System.start s) schedule

section Runs

variable {key : String} {cs : List (WatchList × DateCall)} {s : Contents}

theorem kept_start : Kept key cs s [] (System.start s) where
  stored := .untouched
  call := fun _ _ _ => .waiting List.not_mem_nil
  outside := fun _ _ => rfl

theorem kept_calls (hfit : Fit key cs s) (schedule : List Nat) :
    Kept key cs s (writers key cs s schedule) (calls cs s schedule) := by
  induction schedule using List.reverseRecOn with
  | nil => exact kept_start
  | append_singleton schedule i ih =>
      rw [writers, System.writers_append, calls, System.run_append]
      exact ih.step hfit i

/-- What holds of the date and of the replies, behind every schedule. -/
structure Agreed (key : String) (cs : List (WatchList × DateCall)) (s : Contents)
    (writers : List Nat) (S : System Unit (Except Failure DateReply)) : Prop where
  once : writers.length ≤ 1
  /-- There is nothing to write if there is a date in the beginning. -/
  present : key ∈ s → writers = []
  /-- Otherwise the date is that of the call that writes, cut to milliseconds: exactly so if
  its second is an ordinary one or a leap second at the end of a minute (`LeapInPlace`), and
  else the same millisecond, counted from the next second. -/
  winner : ∀ t, key ∉ s → S.store[key]? = some t →
    ∃ i c d, writers = [i] ∧ cs[i]? = some c ∧ t = c.2.text ∧
      Instant.readRfc3339 t.toList = some d ∧ d.IsCutOf c.2.instant
  recorded : ∀ i w date r, cs[i]? = some (w, .record date) → S.phase i = .returned r →
    ∃ b, r = .ok (.recorded b) ∧ (b = true ↔ i ∈ writers)
  recorded_once : ∀ i j, S.phase i = .returned (.ok (.recorded true)) →
    S.phase j = .returned (.ok (.recorded true)) → i = j
  answered : ∀ i w now r, cs[i]? = some (w, .created now) → S.phase i = .returned r →
    ∃ d, r = .ok (.date d) ∧ Denotes key S.store d
  same : ∀ i j d d', S.phase i = .returned (.ok (.date d)) →
    S.phase j = .returned (.ok (.date d')) → d = d'

theorem Stored.length_le {ws : List Nat} {s' : Contents} (h : Stored key cs s ws s') :
    ws.length ≤ 1 := by
  cases h with
  | untouched => exact Nat.zero_le 1
  | written hcall hnew => exact Nat.le_refl 1

variable {ws : List Nat} {S : System Unit (Except Failure DateReply)} {i : Nat}

theorem Kept.correct (h : Kept key cs s ws S) {r : Except Failure DateReply}
    (hreturned : S.phase i = .returned r) :
    ∃ c, cs[i]? = some c ∧ Correct key S.store (i ∈ ws) c.2 r := by
  cases hcall : cs[i]? with
  | none =>
      rw [h.outside i hcall] at hreturned
      cases hreturned
  | some c =>
      obtain ⟨w, c⟩ := c
      have hstage := h.call i (w, c) hcall
      rw [hreturned] at hstage
      cases hstage with
      | returned hreply => exact ⟨(w, c), rfl, hreply⟩

theorem Kept.mem_writers (h : Kept key cs s ws S)
    (hreturned : S.phase i = .returned (.ok (.recorded true))) : i ∈ ws := by
  obtain ⟨⟨w, c⟩, -, hreply⟩ := h.correct hreturned
  cases c with
  | created now =>
      obtain ⟨d, hr, -⟩ := hreply
      cases hr
  | record date =>
      obtain ⟨b, hr, hb⟩ := hreply
      cases hr
      exact hb.mp rfl

theorem Kept.denotes (h : Kept key cs s ws S) {d : Instant}
    (hreturned : S.phase i = .returned (.ok (.date d))) : Denotes key S.store d := by
  obtain ⟨⟨w, c⟩, -, hreply⟩ := h.correct hreturned
  cases c with
  | created now =>
      obtain ⟨d', hr, hd⟩ := hreply
      cases hr
      exact hd
  | record date =>
      obtain ⟨b, hr, -⟩ := hreply
      cases hr

theorem Kept.agreed (h : Kept key cs s ws S) (hfit : Fit key cs s) : Agreed key cs s ws S where
  once := h.stored.length_le
  present := by
    intro hkey
    have hstored := h.stored
    generalize S.store = s' at hstored
    cases hstored with
    | untouched => rfl
    | written hcall hnew => exact absurd hkey hnew
  winner := by
    intro t hnew ht
    have hstored := h.stored
    generalize S.store = s' at hstored ht
    cases hstored with
    | untouched => exact absurd (mem_iff_exists_text.mpr ⟨t, ht⟩) hnew
    | @written i c hcall hnew =>
        rw [Std.ExtHashMap.getElem?_insert_self] at ht
        obtain rfl := Option.some.inj ht
        exact ⟨i, c, _, rfl, hcall, rfl, hfit.read_text hcall, Instant.isCutOf_shown _⟩
  recorded := by
    intro i w date r hcall hreturned
    obtain ⟨c, hc, hreply⟩ := h.correct hreturned
    obtain rfl := Option.some.inj (hc.symm.trans hcall)
    exact hreply
  recorded_once := by
    intro i j hi hj
    obtain ⟨k, hk⟩ : ∃ k, ws = [k] :=
      List.length_eq_one_iff.mp (Nat.le_antisymm h.stored.length_le
        (List.length_pos_of_mem (h.mem_writers hi)))
    have hik := h.mem_writers hi
    have hjk := h.mem_writers hj
    rw [hk, List.mem_singleton] at hik hjk
    rw [hik, hjk]
  answered := by
    intro i w now r hcall hreturned
    obtain ⟨c, hc, hreply⟩ := h.correct hreturned
    obtain rfl := Option.some.inj (hc.symm.trans hcall)
    exact hreply
  same := by
    intro i j d d' hi hj
    exact (h.denotes hi).unique (h.denotes hj)

/-- Behind a point at which there is a text nobody writes. -/
theorem writers_eq_nil_of_mem (hfit : Fit key cs s) {early : List Nat}
    (hkey : key ∈ (calls cs s early).store) (late : List Nat) :
    System.writers (tasks cs) key (calls cs s early) late = [] := by
  have hearly := kept_calls hfit early
  have hall := kept_calls hfit (early ++ late)
  have hsplit : writers key cs s (early ++ late) = writers key cs s early ++
      System.writers (tasks cs) key (calls cs s early) late := System.writers_append early late
  rw [hsplit] at hall
  have hstored := hearly.stored
  generalize hs : (calls cs s early).store = s' at hstored hkey
  generalize writers key cs s early = ws at hstored hall
  cases hstored with
  | untouched => exact (hall.agreed hfit).present hkey
  | written hcall hnew =>
      have honce := hall.stored.length_le
      rw [List.length_append, List.length_singleton] at honce
      exact List.eq_nil_of_length_eq_zero (by omega)

end Runs

/-- Calls about the date, at the same time or one after the other: the text is written once
at most and never replaced, one call at most reports that it has recorded a date, and those
that ask for the date are all told the one that is stored.  All calls can return. -/
theorem date_written_once {key : String} {cs : List (WatchList × DateCall)} {s : Contents}
    (hfit : Fit key cs s) (schedule : List Nat) :
    Agreed key cs s (writers key cs s schedule) (calls cs s schedule) ∧
      (∀ early late t, schedule = early ++ late → (calls cs s early).store[key]? = some t →
        (calls cs s schedule).store[key]? = some t) ∧
      (∃ rest, ∀ i < cs.length, ∃ r, (calls cs s (schedule ++ rest)).phase i = .returned r) := by
  refine ⟨(kept_calls hfit schedule).agreed hfit, ?_, ?_⟩
  · rintro early late t rfl ht
    have hnobody := writers_eq_nil_of_mem hfit (mem_iff_exists_text.mpr ⟨t, ht⟩) late
    rw [calls, System.run_append]
    exact (System.getElem?_run_of_writers hnobody).trans ht
  · have hfree : ∀ t ∈ tasks cs, t.guard = none := by
      intro t ht
      obtain ⟨c, -, rfl⟩ := List.mem_map.mp ht
      rfl
    obtain ⟨rest, hrest⟩ := System.exists_all_returned hfree (calls cs s schedule)
    refine ⟨rest, fun i hi => ?_⟩
    rw [calls, System.run_append]
    exact hrest i (by rwa [tasks, List.length_map])

/-- Two ask for the date and one records a leap second, all without a namespace. -/
def crossed : List (WatchList × DateCall) :=
  [(⟨none⟩, .created ⟨736329, 0, 250000, by decide, by decide⟩),
    (⟨some ""⟩, .record ⟨736328, 86399, 1500999999, by decide, by decide⟩),
    (⟨none⟩, .created ⟨736329, 1, 0, by decide, by decide⟩)]

/-- The first one has found nothing when the second one writes. -/
theorem date_written_once_crossed : ∃ rest d,
    (calls crossed ∅ ([0, 0, 1, 1] ++ rest)).phase 0 = .returned (.ok (.date d)) ∧
      (calls crossed ∅ ([0, 0, 1, 1] ++ rest)).phase 2 = .returned (.ok (.date d)) := by
  have hfit : Fit (dateKey ⟨none⟩) crossed ∅ := by
    refine ⟨by decide, by decide, fun t ht => ?_⟩
    rw [Std.ExtHashMap.getElem?_empty] at ht
    cases ht
  obtain ⟨-, -, rest, hrest⟩ := date_written_once hfit [0, 0, 1, 1]
  obtain ⟨hagreed, -⟩ := date_written_once hfit ([0, 0, 1, 1] ++ rest)
  obtain ⟨r, hr⟩ := hrest 0 (by decide)
  obtain ⟨r', hr'⟩ := hrest 2 (by decide)
  obtain ⟨d, rfl, -⟩ := hagreed.answered 0 _ _ r rfl hr
  obtain ⟨d', rfl, -⟩ := hagreed.answered 2 _ _ r' rfl hr'
  obtain rfl := hagreed.same 0 2 d d' hr hr'
  exact ⟨rest, d, hr, hr'⟩

end DateCall

end Matinee.WatchList
