/-
# `Matinee.Proofs.LiveSearch.Latest` — the last text is never lost

Timers are cut short by new texts and late outcomes are thrown away, so it has to
be shown that neither of the two ever costs the text that was typed last.  What
carries the proof is an invariant of all runs (`Kept`): as long as the latest text
can be searched for, its search is waiting for the timer, or running, or its
outcome is the one that is published.  In a state in which nothing waits and
nothing runs only the last of the three is left (`latest_published`).

A search is told from others by its number, so the invariant also says that no
two searches share one: the end of an older search would otherwise take a newer
one away with it.

Searches may come to anything that a search of the catalog can come to
(`Search.Outcome`); nothing else about the engine is used.
-/
import Mathlib.Data.List.Nodup
import Matinee.LiveSearch.Basic
import Matinee.Proofs.Text.Blank
import Matinee.Search.Engine

namespace Matinee

/-- What a search may come to, in whatever state it finds the outside when it
begins. -/
def Search.Outcome {σ : Type} (load : StateM σ (List CatalogEntry))
    (lookup : Option (String → StateM σ Search.Lookup)) (limit : Nat) (query : String)
    (results : List Movie) : Prop :=
  ∃ outside : σ, ((Search.search load lookup query limit).run outside).1 = results

namespace LiveSearch

open Text (trim isAllBlank)

/-- The text as it is searched for. -/
def queryOf (text : String) : String := String.ofList (trim text.toList)

/-- The text that came last, if any came. -/
def lastText? (events : List Event) : Option String :=
  (events.filterMap fun
    | .schedule text => some text
    | _ => none).getLast?

/-- The searches that have not ended: the one that waits for the timer, and those
that run. -/
def pending (s : LiveSearch) : List Running := s.timer.toList ++ s.running

/-- In this state the event may happen: a search that ends comes to an outcome. -/
def Allowed (outcome : String → List Movie → Prop) (s : LiveSearch) : Event → Prop
  | .schedule _ | .fire => True
  | .finish call results => ∀ search ∈ s.running, search.call = call → outcome search.query results

/-- From `s` on, every search that ends comes to an outcome of its query. -/
def Lawful (outcome : String → List Movie → Prop) : LiveSearch → List Event → Prop
  | _, [] => True
  | s, e :: events => Allowed outcome s e ∧ Lawful outcome (s.step e) events

/-- What every run keeps; `last` is the text that came last. -/
structure Kept (outcome : String → List Movie → Prop) (last : Option String) (s : LiveSearch) :
    Prop where
  /-- Before the first text the latest one counts as empty. -/
  latest : s.latest = (last.map queryOf).getD ""
  /-- Numbers are given in order, each to one search. -/
  call_lt : ∀ search ∈ s.pending, search.call < s.calls
  nodup : (s.pending.map (·.call)).Nodup
  query_ne : ∀ search ∈ s.pending, search.query ≠ ""
  /-- The latest text waits, or is searched for, or is answered. -/
  underway : Search.isSearchable s.latest = true →
    (∃ search ∈ s.pending, search.query = s.latest) ∨
      (s.current.query = s.latest ∧ outcome s.latest s.current.results)
  cleared : s.latest = "" → s.current = .cleared

variable {outcome : String → List Movie → Prop} {last : Option String} {s : LiveSearch}

theorem kept_initial : Kept outcome none initial where
  latest := rfl
  call_lt := by simp [initial, pending]
  nodup := by simp [initial, pending]
  query_ne := by simp [initial, pending]
  underway := fun h => absurd h (by decide)
  cleared := fun _ => rfl

/-! ## A new text -/

theorem queryOf_eq_empty_iff {text : String} :
    queryOf text = "" ↔ isAllBlank text.toList = true := by
  rw [← Text.trim_eq_nil_iff, queryOf, ← String.toList_inj]
  simp

theorem isSearchable_queryOf (text : String) :
    Search.isSearchable (queryOf text) = decide (2 ≤ (trim text.toList).length) := by
  simp [Search.isSearchable, queryOf, Text.trim_trim, Search.minQueryLength]

theorem ne_empty_of_isSearchable {query : String} (h : Search.isSearchable query = true) :
    query ≠ "" := by
  rintro rfl
  exact absurd h (by decide)

theorem schedule_eq (s : LiveSearch) (text : String) :
    s.schedule text = {
      calls := s.calls + 1
      latest := queryOf text
      timer := if Search.isSearchable (queryOf text) then some ⟨s.calls, queryOf text⟩ else none
      running := s.running
      current := if queryOf text = "" then .cleared else s.current
      published := if queryOf text = "" then s.published + 1 else s.published } := by
  have hquery : String.ofList (trim text.toList) = queryOf text := rfl
  simp only [schedule, hquery]
  by_cases he : queryOf text = ""
  · have hs : Search.isSearchable "" = false := by decide
    simp [he, hs, publish]
  · by_cases hs : Search.isSearchable (queryOf text) = true <;> simp [he, hs]

theorem running_sublist_pending (s : LiveSearch) : s.running.Sublist s.pending :=
  List.sublist_append_right _ _

theorem kept_schedule (h : Kept outcome last s) (text : String) :
    Kept outcome (some text) (s.schedule text) := by
  have hrunning := (running_sublist_pending s).subset
  have hnodup : (s.running.map (·.call)).Nodup :=
    h.nodup.sublist ((running_sublist_pending s).map _)
  rw [schedule_eq]
  by_cases hs : Search.isSearchable (queryOf text) = true
  · have hne : queryOf text ≠ "" := ne_empty_of_isSearchable hs
    refine ⟨rfl, ?_, ?_, ?_, ?_, fun he => absurd he hne⟩ <;>
      simp only [pending, if_pos hs, Option.toList_some, List.singleton_append]
    · intro search hmem
      rcases List.mem_cons.mp hmem with rfl | hmem
      · exact Nat.lt_succ_self _
      · exact Nat.lt_succ_of_lt (h.call_lt search (hrunning hmem))
    · refine List.nodup_cons.mpr ⟨fun hmem => ?_, hnodup⟩
      obtain ⟨search, hsearch, hcall⟩ := List.mem_map.mp hmem
      exact absurd hcall (Nat.ne_of_lt (h.call_lt search (hrunning hsearch)))
    · intro search hmem
      rcases List.mem_cons.mp hmem with rfl | hmem
      · exact hne
      · exact h.query_ne search (hrunning hmem)
    · exact fun _ => .inl ⟨_, List.mem_cons_self, rfl⟩
  · refine ⟨rfl, ?_, ?_, ?_, fun hsearchable => absurd hsearchable hs, fun he => if_pos he⟩ <;>
      simp only [pending, if_neg hs, Option.toList_none, List.nil_append]
    · exact fun search hmem => Nat.lt_succ_of_lt (h.call_lt search (hrunning hmem))
    · exact hnodup
    · exact fun search hmem => h.query_ne search (hrunning hmem)

/-! ## The timer -/

theorem pending_fire (s : LiveSearch) : s.fire.pending.Perm s.pending := by
  cases ht : s.timer with
  | none => simp [fire, ht]
  | some search => simp [fire, pending, ht]

theorem fire_eq (s : LiveSearch) : s.fire.calls = s.calls ∧ s.fire.latest = s.latest ∧
    s.fire.current = s.current := by
  unfold fire
  split <;> exact ⟨rfl, rfl, rfl⟩

theorem kept_fire (h : Kept outcome last s) : Kept outcome last s.fire := by
  obtain ⟨hcalls, hlatest, hcurrent⟩ := fire_eq s
  have hmem {search : Running} : search ∈ s.fire.pending ↔ search ∈ s.pending :=
    (pending_fire s).mem_iff
  refine ⟨hlatest ▸ h.latest, fun search hs => ?_, ?_, fun search hs => ?_, ?_, ?_⟩
  · exact hcalls ▸ h.call_lt search (hmem.mp hs)
  · exact ((pending_fire s).map _).nodup_iff.mpr h.nodup
  · exact h.query_ne search (hmem.mp hs)
  · rw [hlatest, hcurrent]
    intro hsearchable
    rcases h.underway hsearchable with ⟨search, hs, hq⟩ | hanswered
    · exact .inl ⟨search, hmem.mpr hs, hq⟩
    · exact .inr hanswered
  · rw [hlatest, hcurrent]
    exact h.cleared

/-! ## The end of a search -/

/-- All that the end of a search changes: it is no longer pending, and it is
published if its query is the latest. -/
theorem finish_cases (s : LiveSearch) (call : Nat) (results : List Movie) :
    s.finish call results = s ∨
      ∃ search ∈ s.running, search.call = call ∧
        (s.finish call results).calls = s.calls ∧
        (s.finish call results).latest = s.latest ∧
        (s.finish call results).timer = s.timer ∧
        (s.finish call results).running = s.running.filter (·.call != call) ∧
        (s.finish call results).current =
          if s.latest = search.query then ⟨search.query, results⟩ else s.current := by
  unfold finish
  cases hfind : s.running.find? (·.call == call) with
  | none => exact .inl rfl
  | some search =>
      refine .inr ⟨search, List.mem_of_find?_eq_some hfind, ?_, ?_⟩
      · simpa using List.find?_some hfind
      · by_cases hq : s.latest = search.query <;> simp [hq, publish]

theorem pending_finish_sublist (s : LiveSearch) (call : Nat) (results : List Movie) :
    (s.finish call results).pending.Sublist s.pending := by
  rcases finish_cases s call results with heq | ⟨_, _, _, _, _, htimer, hrunning, _⟩
  · rw [heq]
  · rw [pending, pending, htimer, hrunning]
    exact (List.Sublist.refl _).append List.filter_sublist

theorem kept_finish (h : Kept outcome last s) {call : Nat} {results : List Movie}
    (hallowed : Allowed outcome s (.finish call results)) :
    Kept outcome last (s.finish call results) := by
  rcases finish_cases s call results with heq | ⟨search, hsearch, hcall, hcalls, hlatest, htimer,
    hrunning, hcurrent⟩
  · rw [heq]
    exact h
  · have hsub := pending_finish_sublist s call results
    have hpending : search ∈ s.pending := (running_sublist_pending s).subset hsearch
    refine ⟨hlatest ▸ h.latest, fun other ho => ?_, h.nodup.sublist (hsub.map _),
      fun other ho => h.query_ne other (hsub.subset ho), ?_, ?_⟩
    · exact hcalls ▸ h.call_lt other (hsub.subset ho)
    · rw [hlatest, hcurrent]
      intro hsearchable
      by_cases hq : s.latest = search.query
      · rw [if_pos hq]
        exact .inr ⟨hq.symm, hq ▸ hallowed search hsearch hcall⟩
      · rw [if_neg hq]
        refine (h.underway hsearchable).imp_left fun ⟨other, ho, hoq⟩ => ⟨other, ?_, hoq⟩
        -- The search for the latest text is another one, so it has another number.
        have hne : other.call ≠ call := fun heq =>
          hq ((List.inj_on_of_nodup_map h.nodup hpending ho (hcall.trans heq.symm)) ▸ hoq).symm
        rw [pending, htimer, hrunning]
        rcases List.mem_append.mp ho with ht | hr
        · exact List.mem_append_left _ ht
        · exact List.mem_append_right _ (List.mem_filter.mpr ⟨hr, by simpa using hne⟩)
    · rw [hlatest, hcurrent]
      intro he
      rw [if_neg fun hq => h.query_ne search hpending (hq.symm.trans he)]
      exact h.cleared he

/-! ## Whole runs -/

theorem kept_step (h : Kept outcome last s) {e : Event} (hallowed : Allowed outcome s e) :
    Kept outcome ((lastText? [e]).or last) (s.step e) := by
  cases e with
  | schedule text => exact kept_schedule h text
  | fire => exact kept_fire h
  | finish call results => exact kept_finish h hallowed

theorem lastText?_cons (e : Event) (events : List Event) :
    lastText? (e :: events) = (lastText? events).or (lastText? [e]) := by
  rw [← List.singleton_append, lastText?, List.filterMap_append, List.getLast?_append]
  rfl

theorem kept_foldl {events : List Event} (h : Kept outcome last s)
    (hlawful : Lawful outcome s events) :
    Kept outcome ((lastText? events).or last) (events.foldl step s) := by
  induction events generalizing last s with
  | nil => exact h
  | cons e events ih =>
      rw [lastText?_cons, Option.or_assoc]
      exact ih (kept_step h hlawful.1) hlawful.2

theorem kept_runEvents {events : List Event} (h : Lawful outcome initial events) :
    Kept outcome (lastText? events) (runEvents events) := by
  rw [← Option.or_none (o := lastText? events)]
  exact kept_foldl kept_initial h

/-- **The last text is never lost.**  However the events of a run follow each
other: once nothing waits and nothing runs, the text that came last is the one
that is published, with an outcome of a search for it, if two characters of it are
left by trimming; and if it is blank, nothing is published. -/
theorem latest_published {σ : Type} (load : StateM σ (List CatalogEntry))
    (lookup : Option (String → StateM σ Search.Lookup)) (limit : Nat) {events : List Event}
    (hlawful : Lawful (Search.Outcome load lookup limit) initial events)
    (hquiet : (runEvents events).timer = none ∧ (runEvents events).running = [])
    {text : String} (hlast : lastText? events = some text) :
    (2 ≤ (trim text.toList).length →
      (runEvents events).current.query = String.ofList (trim text.toList) ∧
        Search.Outcome load lookup limit (String.ofList (trim text.toList))
          (runEvents events).current.results) ∧
      (isAllBlank text.toList = true → (runEvents events).current = .cleared) := by
  have hkept := kept_runEvents hlawful
  have hlatest : (runEvents events).latest = queryOf text := by
    rw [hkept.latest, hlast]
    rfl
  have hpending : (runEvents events).pending = [] := by
    rw [pending, hquiet.1, hquiet.2]
    rfl
  constructor
  · intro hlength
    have hsearchable : Search.isSearchable (runEvents events).latest = true := by
      rw [hlatest, isSearchable_queryOf]
      exact decide_eq_true hlength
    rcases hkept.underway hsearchable with ⟨search, hmem, -⟩ | ⟨hquery, hresults⟩
    · rw [hpending] at hmem
      exact absurd hmem List.not_mem_nil
    · rw [hlatest] at hquery hresults
      exact ⟨hquery, hresults⟩
  · intro hblank
    exact hkept.cleared (hlatest.trans (queryOf_eq_empty_iff.mpr hblank))

/-- Two films in the catalog; the search for the first text ends last. -/
theorem latest_published_overtaken :
    let heat : CatalogEntry := ⟨1, "Heat (1995)", []⟩
    let inception : CatalogEntry := ⟨2, "Inception (2010)", []⟩
    let load : StateM Unit (List CatalogEntry) := pure [heat, inception]
    let events : List Event := [.schedule "heat", .fire, .schedule " inc ", .fire,
      .finish 1 [.ofEntry inception], .finish 0 [.ofEntry heat]]
    Lawful (Search.Outcome load none 10) initial events ∧
      ((runEvents events).timer = none ∧ (runEvents events).running = []) ∧
      lastText? events = some " inc " ∧ 2 ≤ (trim " inc ".toList).length ∧
      (runEvents events).current.query = "inc" := by
  intro heat inception load events
  have hinc : Search.Outcome load none 10 "inc" [.ofEntry inception] := ⟨(), by decide +kernel⟩
  have hheat : Search.Outcome load none 10 "heat" [.ofEntry heat] := ⟨(), by decide +kernel⟩
  have hlawful : Lawful (Search.Outcome load none 10) initial events := by
    have hrunning : (runEvents (events.take 4)).running = [⟨0, "heat"⟩, ⟨1, "inc"⟩] := by
      decide +kernel
    have hrunning' : (runEvents (events.take 5)).running = [⟨0, "heat"⟩] := by decide +kernel
    refine ⟨trivial, trivial, trivial, trivial, fun search hsearch hcall => ?_,
      fun search hsearch hcall => ?_, trivial⟩
    · change search ∈ (runEvents (events.take 4)).running at hsearch
      rw [hrunning] at hsearch
      rcases List.mem_pair.mp hsearch with rfl | rfl
      · exact absurd hcall (by decide)
      · exact hinc
    · change search ∈ (runEvents (events.take 5)).running at hsearch
      rw [hrunning', List.mem_singleton] at hsearch
      exact hsearch ▸ hheat
  have hquiet : (runEvents events).timer = none ∧ (runEvents events).running = [] := by
    decide +kernel
  have hlast : lastText? events = some " inc " := by decide +kernel
  have hlength : 2 ≤ (trim " inc ".toList).length := by decide +kernel
  exact ⟨hlawful, hquiet, hlast, hlength,
    ((latest_published load none 10 hlawful hquiet hlast).1 hlength).1.trans (by decide +kernel)⟩

/-! ## Every run can come to rest -/

theorem exists_finishes (houtcome : ∀ query, ∃ results, outcome query results)
    (h : Kept outcome last s) (htimer : s.timer = none) :
    ∃ ends : List Event, lastText? ends = none ∧ Lawful outcome s ends ∧
      (ends.foldl step s).pending = [] := by
  induction hn : s.running.length using Nat.strongRecOn generalizing s with
  | _ n ih =>
      cases hrunning : s.running with
      | nil => exact ⟨[], rfl, trivial, by simp [pending, htimer, hrunning]⟩
      | cons search rest =>
          obtain ⟨results, hresults⟩ := houtcome search.query
          have hmem : search ∈ s.running := hrunning ▸ List.mem_cons_self
          have hallowed : Allowed outcome s (.finish search.call results) := by
            intro other ho hcall
            have hsub := (running_sublist_pending s).subset
            exact List.inj_on_of_nodup_map h.nodup (hsub ho) (hsub hmem) hcall ▸ hresults
          obtain ⟨htimer', hless⟩ : (s.finish search.call results).timer = none ∧
              (s.finish search.call results).running.length < n := by
            have hfind : s.running.find? (·.call == search.call) = some search := by
              simp [hrunning]
            have hlen : (s.running.filter (·.call != search.call)).length < s.running.length :=
              List.length_filter_lt_length_iff_exists.mpr ⟨search, hmem, by simp⟩
            simp only [finish, hfind]
            split <;> exact ⟨htimer, hn ▸ hlen⟩
          obtain ⟨ends, hnone, hlawful, hrest⟩ :=
            ih _ hless (kept_finish h hallowed) htimer' rfl
          refine ⟨.finish search.call results :: ends, ?_, ⟨hallowed, hlawful⟩, hrest⟩
          rw [lastText?_cons, hnone]
          rfl

/-- A run comes to rest without another text if the timer fires and the searches
end; so the rest that `latest_published` speaks of is always within reach. -/
theorem exists_quiet (houtcome : ∀ query, ∃ results, outcome query results) {events : List Event}
    (h : Lawful outcome initial events) :
    ∃ ends : List Event, lastText? ends = none ∧
      Lawful outcome (runEvents events) (.fire :: ends) ∧
        ((Event.fire :: ends).foldl step (runEvents events)).pending = [] := by
  have htimer : (runEvents events).fire.timer = none := by
    unfold fire
    split
    · rfl
    · assumption
  obtain ⟨ends, hnone, hlawful, hrest⟩ :=
    exists_finishes houtcome (kept_fire (kept_runEvents h)) htimer
  exact ⟨ends, hnone, ⟨trivial, hlawful⟩, hrest⟩

end LiveSearch

end Matinee
