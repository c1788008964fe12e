/-
# `Matinee.Proofs.LiveSearch.Timers` — one timer, and silence behind a short text

That there is one timer is no matter of course: timers are tasks, and all that a call
has of the timer of the call before it is a handle, which tells nothing of whether that
timer has fired.  `Tasks` is live search with tasks and handles.  A timer that waits is
the one that the handle is of, so cutting this one short leaves none (`Single`).  Hence
what such a machine does is a run of events (`view_runEvents`), and all the rest is
said of those.

A timer waits from its call until it fires or the next call is made
(`timer_eq_some_iff`), so a search begins for the latest call only.  Nothing is cut
short once it has begun.  That nothing is published behind a text that is too short is
owed to the queries: those of the searches that run are all longer than it
(`Silent`).
-/
import Matinee.Proofs.LiveSearch.Stale

namespace Matinee.LiveSearch

open Text (trim isAllBlank)

/-! ## Timers as tasks -/

/-- Live search with its timers as tasks. -/
structure Tasks where
  calls : Nat
  latest : String
  /-- The number of the timer that was started last; it may have fired since. -/
  handle : Option Nat
  /-- The timers that have been started and have neither fired nor been cut short. -/
  timers : List Running
  running : List Running
  current : Snapshot
  published : Nat

namespace Tasks

def initial : Tasks := ⟨0, "", none, [], [], .cleared, 0⟩

/-- The timer of the handle is cut short, if it still waits. -/
def abort (t : Tasks) : Tasks :=
  { t with
    handle := none
    timers := match t.handle with
      | some call => t.timers.filter (·.call != call)
      | none => t.timers }

def publish (t : Tasks) (snapshot : Snapshot) : Tasks :=
  { t with current := snapshot, published := t.published + 1 }

def schedule (t : Tasks) (text : String) : Tasks :=
  let t' := { t.abort with calls := t.calls + 1, latest := queryOf text }
  if (queryOf text).isEmpty then t'.publish .cleared
  else if Search.isSearchable (queryOf text) then
    { t' with handle := some t.calls, timers := t'.timers ++ [⟨t.calls, queryOf text⟩] }
  else t'

/-- The timer of a call fires, if it still waits. -/
def fire (t : Tasks) (call : Nat) : Tasks :=
  match t.timers.find? (·.call == call) with
  | some search =>
    { t with
      timers := t.timers.filter (·.call != call)
      running := t.running ++ [search] }
  | none => t

def finish (t : Tasks) (call : Nat) (results : List Movie) : Tasks :=
  match t.running.find? (·.call == call) with
  | some search =>
    let t' := { t with running := t.running.filter (·.call != call) }
    if t.latest = search.query then t'.publish ⟨search.query, results⟩ else t'
  | none => t

/-- Any of the timers may fire, and any of the searches end. -/
inductive Event where
  | schedule (text : String)
  | fire (call : Nat)
  | finish (call : Nat) (results : List Movie)

def step (t : Tasks) : Event → Tasks
  | .schedule text => t.schedule text
  | .fire call => t.fire call
  | .finish call results => t.finish call results

def runEvents (events : List Event) : Tasks := events.foldl step initial

/-- The same with the timer that waits in place of the tasks. -/
def view (t : Tasks) : LiveSearch :=
  ⟨t.calls, t.latest, t.timers.head?, t.running, t.current, t.published⟩

/-- What an event is without the tasks; a timer that does not wait is not heard. -/
def heard? (t : Tasks) : Event → Option LiveSearch.Event
  | .schedule text => some (.schedule text)
  | .fire call => if t.timers.any (·.call == call) then some .fire else none
  | .finish call results => some (.finish call results)

/-- The events that are heard, one after another. -/
def heard : Tasks → List Event → List LiveSearch.Event
  | _, [] => []
  | t, e :: events => (t.heard? e).toList ++ heard (t.step e) events

/-- If a timer waits, it is the one that the handle is of. -/
def Single (t : Tasks) : Prop :=
  t.timers = [] ∨ ∃ search, t.timers = [search] ∧ t.handle = some search.call

variable {t : Tasks}

theorem Single.length_le (h : Single t) : t.timers.length ≤ 1 := by
  rcases h with hnone | ⟨search, hone, -⟩
  · simp [hnone]
  · simp [hone]

theorem Single.timers_abort (h : Single t) : t.abort.timers = [] := by
  rcases h with hnone | ⟨search, hone, hhandle⟩
  · simp only [abort, hnone]
    cases t.handle <;> rfl
  · simp [abort, hone, hhandle]

theorem schedule_eq (t : Tasks) (text : String) :
    t.schedule text = {
      calls := t.calls + 1
      latest := queryOf text
      handle := if Search.isSearchable (queryOf text) then some t.calls else none
      timers := t.abort.timers ++
        if Search.isSearchable (queryOf text) then [⟨t.calls, queryOf text⟩] else []
      running := t.running
      current := if queryOf text = "" then .cleared else t.current
      published := if queryOf text = "" then t.published + 1 else t.published } := by
  have hnever : Search.isSearchable "" = false := by decide
  by_cases hquery : queryOf text = ""
  · simp [schedule, hquery, hnever, publish, abort]
  · by_cases hs : Search.isSearchable (queryOf text) = true <;>
      simp [schedule, hquery, hs, abort]

theorem Single.schedule (h : Single t) (text : String) : Single (t.schedule text) := by
  rw [schedule_eq, Single, h.timers_abort]
  by_cases hs : Search.isSearchable (queryOf text) = true <;> simp [hs]

theorem Single.view_schedule (h : Single t) (text : String) :
    (t.schedule text).view = t.view.schedule text := by
  rw [schedule_eq, LiveSearch.schedule_eq, view, h.timers_abort]
  by_cases hs : Search.isSearchable (queryOf text) = true <;> simp [hs, view]

/-- A timer that fires is the one that waits, or it is not heard. -/
theorem Single.fire (h : Single t) (call : Nat) :
    Single (t.fire call) ∧
      (t.fire call).view = (t.heard? (.fire call)).toList.foldl LiveSearch.step t.view := by
  rcases h with hnone | ⟨search, hone, hhandle⟩
  · simp [Tasks.fire, heard?, hnone, Single]
  · by_cases hcall : search.call = call
    · simp [Tasks.fire, heard?, hone, hcall, Single, view, LiveSearch.step, LiveSearch.fire]
    · simp [Tasks.fire, heard?, hone, hcall, Single, hhandle]

theorem finish_eq (t : Tasks) (call : Nat) (results : List Movie) :
    (t.finish call results).timers = t.timers ∧ (t.finish call results).handle = t.handle ∧
      (t.finish call results).view = t.view.finish call results := by
  simp only [finish, LiveSearch.finish, view]
  cases t.running.find? (·.call == call) with
  | none => exact ⟨rfl, rfl, rfl⟩
  | some search =>
      by_cases hlatest : t.latest = search.query <;>
        simp [hlatest, publish, LiveSearch.publish]

theorem Single.step (h : Single t) (e : Event) :
    Single (t.step e) ∧
      (t.step e).view = (t.heard? e).toList.foldl LiveSearch.step t.view := by
  cases e with
  | schedule text =>
      simp only [Tasks.step, heard?, Option.toList_some, List.foldl_cons, List.foldl_nil,
        LiveSearch.step]
      exact ⟨h.schedule text, h.view_schedule text⟩
  | fire call => exact h.fire call
  | finish call results =>
      obtain ⟨htimers, hhandle, hview⟩ := finish_eq t call results
      refine ⟨?_, hview⟩
      simpa only [Single, Tasks.step, htimers, hhandle] using h

theorem Single.foldl (h : Single t) (events : List Event) :
    Single (events.foldl Tasks.step t) ∧
      (events.foldl Tasks.step t).view = (heard t events).foldl LiveSearch.step t.view := by
  induction events generalizing t with
  | nil => exact ⟨h, rfl⟩
  | cons e events ih =>
      obtain ⟨hsingle, hview⟩ := h.step e
      obtain ⟨hlast, hevents⟩ := ih hsingle
      refine ⟨hlast, ?_⟩
      rw [heard, List.foldl_append, ← hview]
      exact hevents

theorem single_initial : Single initial := .inl rfl

/-- Whatever the tasks do, what comes of it is what comes of the events that are heard. -/
theorem view_runEvents (events : List Event) :
    (runEvents events).view = LiveSearch.runEvents (heard initial events) :=
  (single_initial.foldl events).2

end Tasks

/-! ## The timer that waits -/

variable {s : LiveSearch}

/-- Some event ends a search. -/
def Event.IsEnd (e : Event) : Prop := ∃ call results, e = .finish call results

theorem not_isEnd_schedule (text : String) : ¬ (Event.schedule text).IsEnd := by
  rintro ⟨call, results, h⟩
  cases h

theorem not_isEnd_fire : ¬ Event.fire.IsEnd := by
  rintro ⟨call, results, h⟩
  cases h

theorem isEnd_finish (call : Nat) (results : List Movie) : (Event.finish call results).IsEnd :=
  ⟨call, results, rfl⟩

/-- The text has been given after `front`, and since then nothing has happened but that
searches have ended. -/
def Waits (events : List Event) (search : Running) : Prop :=
  ∃ front text back, events = front ++ .schedule text :: back ∧ (∀ e ∈ back, e.IsEnd) ∧
    2 ≤ (trim text.toList).length ∧ search = ⟨(queriesOf front).length, queryOf text⟩

/-- The place of an event in a run that grows by one. -/
theorem concat_eq_append_cons_iff {events front back : List Event} {e x : Event} :
    events ++ [e] = front ++ x :: back ↔
      (events = front ∧ e = x ∧ back = []) ∨
        ∃ back', back = back' ++ [e] ∧ events = front ++ x :: back' := by
  rcases List.eq_nil_or_concat back with rfl | ⟨back, last, rfl⟩
  · simp
  · rw [List.concat_eq_append, ← List.cons_append, ← List.append_assoc]
    constructor
    · intro h
      obtain ⟨hevents, hlast⟩ := List.append_inj' h rfl
      exact .inr ⟨back, by rw [List.singleton_inj.mp hlast], hevents⟩
    · rintro (⟨-, -, hback⟩ | ⟨back', hback, rfl⟩)
      · simp at hback
      · obtain ⟨rfl, hlast⟩ := List.append_inj' hback rfl
        rw [hlast]

theorem waits_concat {events : List Event} {e : Event} {search : Running} :
    Waits (events ++ [e]) search ↔
      (∃ text, e = .schedule text ∧ 2 ≤ (trim text.toList).length ∧
        search = ⟨(queriesOf events).length, queryOf text⟩) ∨ Waits events search ∧ e.IsEnd := by
  simp only [Waits, concat_eq_append_cons_iff]
  constructor
  · rintro ⟨front, text, back, ⟨rfl, rfl, rfl⟩ | ⟨back, rfl, rfl⟩, hback, hlength, hsearch⟩
    · exact .inl ⟨text, rfl, hlength, hsearch⟩
    · refine .inr ⟨⟨front, text, back, rfl, fun e he => ?_, hlength, hsearch⟩, ?_⟩
      · exact hback e (List.mem_append_left _ he)
      · exact hback e (List.mem_append_right _ (List.mem_singleton.mpr rfl))
  · rintro (⟨text, rfl, hlength, hsearch⟩ | ⟨⟨front, text, back, rfl, hback, hlength, hsearch⟩, he⟩)
    · exact ⟨events, text, [], .inl ⟨rfl, rfl, rfl⟩, nofun, hlength, hsearch⟩
    · refine ⟨front, text, back ++ [e], .inr ⟨back, rfl, rfl⟩, fun e' he' => ?_, hlength, hsearch⟩
      rcases List.mem_append.mp he' with he' | he'
      · exact hback e' he'
      · exact List.mem_singleton.mp he' ▸ he

theorem timer_fire (s : LiveSearch) : s.fire.timer = none := by
  unfold fire
  split
  · rfl
  · assumption

theorem timer_finish (s : LiveSearch) (call : Nat) (results : List Movie) :
    (s.finish call results).timer = s.timer := by
  rcases finish_cases s call results with heq | ⟨_, _, _, _, _, htimer, -⟩
  · rw [heq]
  · exact htimer

/-- A timer waits from its call until it fires or the next call is made. -/
theorem timer_eq_some_iff {events : List Event} {search : Running} :
    (runEvents events).timer = some search ↔ Waits events search := by
  induction events using List.reverseRecOn with
  | nil => simp [runEvents, initial, Waits]
  | append_singleton events e ih =>
      rw [runEvents_concat, waits_concat]
      cases e with
      | schedule text =>
          rw [step, schedule_eq, (numbered_runEvents events).calls_eq, isSearchable_queryOf]
          by_cases hlength : 2 ≤ (trim text.toList).length <;>
            simp [hlength, not_isEnd_schedule, eq_comm]
      | fire => simp [step, timer_fire, not_isEnd_fire]
      | finish call results =>
          rw [step, timer_finish, ih]
          simp [isEnd_finish]

theorem lawful_true (s : LiveSearch) (events : List Event) : Lawful (fun _ _ => True) s events := by
  induction events generalizing s with
  | nil => trivial
  | cons e events ih =>
      refine ⟨?_, ih _⟩
      cases e with
      | schedule text => trivial
      | fire => trivial
      | finish call results => exact fun _ _ _ => trivial

theorem not_mem_running_of_timer {events : List Event} {search : Running}
    (h : (runEvents events).timer = some search) : search ∉ (runEvents events).running := by
  have hnodup := (kept_runEvents (lawful_true initial events)).nodup
  rw [pending, h, Option.toList_some, List.singleton_append, List.map_cons,
    List.nodup_cons] at hnodup
  exact fun hmem => hnodup.1 (List.mem_map_of_mem hmem)

theorem running_fire {search : Running} (h : s.timer = some search) :
    s.fire.running = s.running ++ [search] := by
  rw [fire, h]

/-- A search begins when the timer fires that waits for it, and in no other way. -/
theorem begins_iff {events : List Event} {e : Event} {search : Running} :
    search ∈ (runEvents (events ++ [e])).running ∧ search ∉ (runEvents events).running ↔
      e = .fire ∧ Waits events search := by
  rw [← timer_eq_some_iff, runEvents_concat]
  constructor
  · rintro ⟨hmem, hnew⟩
    cases e with
    | schedule text =>
        rw [step, schedule_eq] at hmem
        exact absurd hmem hnew
    | fire =>
        refine ⟨rfl, ?_⟩
        cases htimer : (runEvents events).timer with
        | none =>
            rw [step, fire, htimer] at hmem
            exact absurd hmem hnew
        | some waiting =>
            rw [step, running_fire htimer, List.mem_append, List.mem_singleton] at hmem
            rw [hmem.resolve_left hnew]
    | finish call results =>
        have hsub :
            ((runEvents events).finish call results).running ⊆ (runEvents events).running := by
          rcases finish_cases (runEvents events) call results with
            heq | ⟨_, _, _, _, _, _, hrunning, -⟩
          · rw [heq]
            exact List.Subset.refl _
          · rw [hrunning]
            exact List.filter_subset_self _
        exact absurd (hsub hmem) hnew
  · rintro ⟨rfl, htimer⟩
    refine ⟨?_, not_mem_running_of_timer htimer⟩
    rw [step, running_fire htimer]
    exact List.mem_append_right _ (List.mem_singleton.mpr rfl)

/-! ## Silence -/

/-- All searches on their way are for longer texts than the latest one. -/
structure Silent (s : LiveSearch) : Prop where
  short : Search.isSearchable s.latest = false
  long : ∀ search ∈ s.pending, Search.isSearchable search.query = true

theorem Silent.ne_latest (h : Silent s) {search : Running} (hsearch : search ∈ s.running) :
    s.latest ≠ search.query := fun heq => by
  have hlong := h.long search ((running_sublist_pending s).subset hsearch)
  rw [← heq, h.short] at hlong
  cases hlong

theorem Silent.step (h : Silent s) {e : Event} (he : queriesOf [e] = []) :
    Silent (s.step e) ∧ (s.step e).current = s.current ∧ publisher? s e = none := by
  have hnone : publisher? s e = none := by
    refine Option.eq_none_iff_forall_ne_some.mpr fun n hn => ?_
    rcases publisher?_cases hn with ⟨text, rfl, -⟩ | ⟨_, search, -, hsearch, -, hlatest, -⟩
    · cases he
    · exact h.ne_latest hsearch hlatest
  cases e with
  | schedule text => cases he
  | fire =>
      obtain ⟨-, hlatest, hcurrent⟩ := fire_eq s
      refine ⟨⟨?_, fun search hs => ?_⟩, hcurrent, hnone⟩
      · rw [LiveSearch.step, hlatest]
        exact h.short
      · exact h.long search ((pending_fire s).mem_iff.mp hs)
  | finish call results =>
      rcases finish_cases s call results with
        heq | ⟨search, hsearch, -, -, hlatest, -, -, hcurrent⟩
      · rw [LiveSearch.step, heq]
        exact ⟨h, rfl, hnone⟩
      · rw [if_neg (h.ne_latest hsearch)] at hcurrent
        refine ⟨⟨?_, fun other ho => ?_⟩, hcurrent, hnone⟩
        · rw [LiveSearch.step, hlatest]
          exact h.short
        · exact h.long other ((pending_finish_sublist s call results).subset ho)

theorem Silent.foldl (h : Silent s) {events : List Event} (hevents : queriesOf events = []) :
    (events.foldl LiveSearch.step s).current = s.current ∧ publishers s events = [] := by
  induction events generalizing s with
  | nil => exact ⟨rfl, rfl⟩
  | cons e events ih =>
      rw [← List.singleton_append, queriesOf, List.filterMap_append,
        List.append_eq_nil_iff] at hevents
      obtain ⟨hsilent, hcurrent, hnone⟩ := h.step hevents.1
      obtain ⟨hlast, hpublishers⟩ := ih hsilent hevents.2
      refine ⟨hlast.trans hcurrent, ?_⟩
      rw [publishers, hnone, hpublishers]
      rfl

theorem silent_schedule {queries : List String} (h : Numbered queries s) {text : String}
    (hshort : (trim text.toList).length < 2) : Silent (s.schedule text) where
  short := by
    rw [schedule_eq, isSearchable_queryOf]
    exact decide_eq_false (Nat.not_le.mpr hshort)
  long := (numbered_schedule h text).isSearchable

/-- **One timer, and silence behind a short text.**  Whatever calls are made, timers fire
and searches end, in whatever order: at most one timer waits.  A search begins when the
timer of its call fires, and that waits only if two characters of its text are left by
trimming and no other call has been made.  And once a text has come of which fewer are
left, no search publishes anything until the next text: behind a blank one the empty
snapshot stays, behind a single character what was there before. -/
theorem one_timer_and_silence :
    (∀ events : List Tasks.Event, (Tasks.runEvents events).timers.length ≤ 1 ∧
      (Tasks.runEvents events).view = runEvents (Tasks.heard Tasks.initial events)) ∧
    (∀ (events : List Event) (e : Event) (search : Running),
      search ∈ (runEvents (events ++ [e])).running ∧ search ∉ (runEvents events).running ↔
        e = .fire ∧ Waits events search) ∧
    ∀ (events later : List Event) (text : String), (trim text.toList).length < 2 →
      queriesOf later = [] →
        publishers (runEvents (events ++ [.schedule text])) later = [] ∧
          (runEvents (events ++ .schedule text :: later)).current =
            if isAllBlank text.toList then .cleared else (runEvents events).current := by
  refine ⟨fun events => ⟨?_, Tasks.view_runEvents events⟩, fun _ _ _ => begins_iff, ?_⟩
  · exact (Tasks.single_initial.foldl events).1.length_le
  · intro events later text hshort hlater
    have hsilent := silent_schedule (numbered_runEvents events) hshort
    obtain ⟨hcurrent, hpublishers⟩ := hsilent.foldl hlater
    refine ⟨by rwa [runEvents_concat], ?_⟩
    rw [← List.singleton_append, ← List.append_assoc, runEvents, List.foldl_append, ← runEvents,
      runEvents_concat]
    refine hcurrent.trans ?_
    rw [schedule_eq]
    simp only [queryOf_eq_empty_iff]

/-- A search that runs comes to its end behind a single character, and what had been
published before it stays. -/
theorem one_timer_and_silence_backspace :
    let events : List Event := [.schedule "heat", .fire, .finish 0 [], .schedule "inc", .fire]
    (trim " i ".toList).length < 2 ∧ queriesOf [.finish 1 []] = [] ∧
      (runEvents events).running = [⟨1, "inc"⟩] ∧
      publishers (runEvents (events ++ [.schedule " i "])) [.finish 1 []] = [] ∧
      (runEvents (events ++ .schedule " i " :: [.finish 1 []])).current = ⟨"heat", []⟩ := by
  intro events
  have hshort : (trim " i ".toList).length < 2 := by decide +kernel
  have hlater : queriesOf [.finish 1 []] = [] := rfl
  have hrunning : (runEvents events).running = [⟨1, "inc"⟩] := by decide +kernel
  have hbefore : (if isAllBlank " i ".toList then .cleared else (runEvents events).current) =
      ⟨"heat", []⟩ := by decide +kernel
  obtain ⟨hpublishers, hcurrent⟩ := one_timer_and_silence.2.2 events _ " i " hshort hlater
  exact ⟨hshort, hlater, hrunning, hpublishers, hcurrent.trans hbefore⟩

end Matinee.LiveSearch
