/-
# `Matinee.Proofs.LiveSearch.Stale` — for which call a snapshot is published

Every snapshot belongs to the call that gave its text: a blank text publishes at
once, any other one by the end of its search.  Whether a search ends too late is
told by the texts and not by the numbers of the calls, so two things have to be
kept apart.

What is published always answers the latest text.  It need not be published for the
latest call: if a text is given, then another one, then the first again, the search
of the first call answers for the third, and may even replace what the search of
the third call has come to (`published_for_superseded`).  Only a text that is given
again opens this way; a call whose text is not is published for before the next
call is made, or never (`published_before_next_call`).

The invariant ties numbers to texts: the search with the number `n` is for the
`n`-th text (`Numbered`).
-/
import Mathlib.Data.List.Induction
import Matinee.Proofs.LiveSearch.Latest

namespace Matinee.LiveSearch

/-- The texts that were given, as they are searched for, in the order of the calls. -/
def queriesOf (events : List Event) : List String :=
  events.filterMap fun
    | .schedule text => some (queryOf text)
    | _ => none

/-- The call that an event publishes a snapshot for, if it publishes one. -/
def publisher? (s : LiveSearch) (e : Event) : Option Nat :=
  if (s.step e).published = s.published then none
  else
    match e with
    | .schedule _ => some s.calls
    | .fire => none
    | .finish call _ => some call

/-- The calls that snapshots are published for, one after another. -/
def publishers : LiveSearch → List Event → List Nat
  | _, [] => []
  | s, e :: events => (publisher? s e).toList ++ publishers (s.step e) events

/-- The text of the call `n` can be searched for, and is given again by a later call. -/
def Repeated (events : List Event) (n : Nat) : Prop :=
  ∃ later query, n < later ∧ (queriesOf events)[n]? = some query ∧
    (queriesOf events)[later]? = some query ∧ Search.isSearchable query = true

theorem queriesOf_concat (events : List Event) (e : Event) :
    queriesOf (events ++ [e]) = queriesOf events ++ queriesOf [e] :=
  List.filterMap_append

theorem getElem?_queriesOf_concat {events : List Event} {n : Nat} {query : String}
    (h : (queriesOf events)[n]? = some query) (e : Event) :
    (queriesOf (events ++ [e]))[n]? = some query := by
  rw [queriesOf_concat, List.getElem?_append_left (List.getElem?_eq_some_iff.mp h).1, h]

theorem Repeated.concat {events : List Event} {n : Nat} (h : Repeated events n) (e : Event) :
    Repeated (events ++ [e]) n := by
  obtain ⟨later, query, hlater, hn, hagain, hsearchable⟩ := h
  exact ⟨later, query, hlater, getElem?_queriesOf_concat hn e,
    getElem?_queriesOf_concat hagain e, hsearchable⟩

/-! ## Numbers and texts -/

/-- What ties the numbers of the searches to the texts given so far. -/
structure Numbered (queries : List String) (s : LiveSearch) : Prop where
  calls_eq : s.calls = queries.length
  latest_eq : s.latest = queries.getLast?.getD ""
  isSearchable : ∀ search ∈ s.pending, Search.isSearchable search.query = true
  query_eq : ∀ search ∈ s.pending, queries[search.call]? = some search.query

variable {queries : List String} {s : LiveSearch}

theorem numbered_initial : Numbered [] initial where
  calls_eq := rfl
  latest_eq := rfl
  isSearchable := by simp [initial, pending]
  query_eq := by simp [initial, pending]

theorem numbered_schedule (h : Numbered queries s) (text : String) :
    Numbered (queries ++ [queryOf text]) (s.schedule text) := by
  have hrunning := (running_sublist_pending s).subset
  have hold : ∀ search ∈ s.running,
      (queries ++ [queryOf text])[search.call]? = some search.query := by
    intro search hmem
    have hquery := h.query_eq search (hrunning hmem)
    rw [List.getElem?_append_left (List.getElem?_eq_some_iff.mp hquery).1, hquery]
  rw [schedule_eq]
  refine ⟨by simp [h.calls_eq], by simp, ?_, ?_⟩ <;> simp only [pending]
  · by_cases hs : Search.isSearchable (queryOf text) = true
    · rw [if_pos hs]
      intro search hmem
      rcases List.mem_cons.mp hmem with rfl | hmem
      · exact hs
      · exact h.isSearchable search (hrunning hmem)
    · rw [if_neg hs]
      exact fun search hmem => h.isSearchable search (hrunning hmem)
  · by_cases hs : Search.isSearchable (queryOf text) = true
    · rw [if_pos hs]
      intro search hmem
      rcases List.mem_cons.mp hmem with rfl | hmem
      · simp [h.calls_eq]
      · exact hold search hmem
    · rw [if_neg hs]
      exact hold

theorem numbered_fire (h : Numbered queries s) : Numbered queries s.fire := by
  obtain ⟨hcalls, hlatest, -⟩ := fire_eq s
  have hmem {search : Running} : search ∈ s.fire.pending ↔ search ∈ s.pending :=
    (pending_fire s).mem_iff
  exact ⟨hcalls ▸ h.calls_eq, hlatest ▸ h.latest_eq,
    fun search hs => h.isSearchable search (hmem.mp hs),
    fun search hs => h.query_eq search (hmem.mp hs)⟩

theorem numbered_finish (h : Numbered queries s) (call : Nat) (results : List Movie) :
    Numbered queries (s.finish call results) := by
  rcases finish_cases s call results with heq | ⟨_, _, _, hcalls, hlatest, -⟩
  · rw [heq]
    exact h
  · have hsub := pending_finish_sublist s call results
    exact ⟨hcalls ▸ h.calls_eq, hlatest ▸ h.latest_eq,
      fun search hs => h.isSearchable search (hsub.subset hs),
      fun search hs => h.query_eq search (hsub.subset hs)⟩

theorem numbered_step (h : Numbered queries s) (e : Event) :
    Numbered (queries ++ queriesOf [e]) (s.step e) := by
  cases e with
  | schedule text => exact numbered_schedule h text
  | fire => exact (List.append_nil queries).symm ▸ numbered_fire h
  | finish call results => exact (List.append_nil queries).symm ▸ numbered_finish h call results

theorem runEvents_concat (events : List Event) (e : Event) :
    runEvents (events ++ [e]) = (runEvents events).step e :=
  List.foldl_append

theorem numbered_runEvents (events : List Event) :
    Numbered (queriesOf events) (runEvents events) := by
  induction events using List.reverseRecOn with
  | nil => exact numbered_initial
  | append_singleton events e ih =>
      rw [queriesOf_concat, runEvents_concat]
      exact numbered_step ih e

/-! ## One publication -/

/-- A snapshot is published by a blank text for its own call, or by the end of a
search for the latest text. -/
theorem publisher?_cases {e : Event} {n : Nat} (h : publisher? s e = some n) :
    (∃ text, e = .schedule text ∧ s.calls = n ∧ queryOf text = "" ∧
        (s.step e).current = .cleared) ∨
      ∃ results search, e = .finish n results ∧ search ∈ s.running ∧ search.call = n ∧
        s.latest = search.query ∧ (s.step e).current = ⟨search.query, results⟩ := by
  unfold publisher? at h
  split at h
  · exact absurd h nofun
  · rename_i hpublished
    cases e with
    | schedule text =>
        refine .inl ⟨text, rfl, Option.some_inj.mp h, ?_⟩
        simp only [step, schedule_eq] at hpublished ⊢
        by_cases hquery : queryOf text = ""
        · exact ⟨hquery, if_pos hquery⟩
        · simp [hquery] at hpublished
    | fire => exact absurd h nofun
    | finish call results =>
        obtain rfl : call = n := Option.some_inj.mp h
        refine .inr ⟨results, ?_⟩
        simp only [step, finish] at hpublished ⊢
        cases hfind : s.running.find? (·.call == call) with
        | none => simp [hfind] at hpublished
        | some search =>
            have hcall : search.call = call := by simpa using List.find?_some hfind
            by_cases hlatest : s.latest = search.query
            · exact ⟨search, trivial, List.mem_of_find?_eq_some hfind, hcall, hlatest,
                by simp [hlatest, publish]⟩
            · simp [hfind, hlatest] at hpublished

/-- What is published answers the text of its call, and that is the latest text.  A
call that is not the latest one has led to a search. -/
theorem answers_latest {events : List Event} {e : Event} {n : Nat}
    (h : publisher? (runEvents events) e = some n) :
    ∃ query, (queriesOf (events ++ [e]))[n]? = some query ∧
      (queriesOf (events ++ [e])).getLast? = some query ∧
      ((∃ text, e = .schedule text ∧ (runEvents (events ++ [e])).current = .cleared) ∨
        ∃ results, e = .finish n results ∧ ⟨n, query⟩ ∈ (runEvents events).running ∧
          (runEvents (events ++ [e])).current = ⟨query, results⟩) ∧
      ((queriesOf (events ++ [e])).length = n + 1 ∨ Search.isSearchable query = true) := by
  have hnumbered := numbered_runEvents events
  rw [runEvents_concat, queriesOf_concat]
  rcases publisher?_cases h with ⟨text, rfl, rfl, hquery, hcurrent⟩ |
    ⟨results, search, rfl, hsearch, rfl, hlatest, hcurrent⟩
  · have hnew : queriesOf [.schedule text] = [""] := congrArg (fun q => [q]) hquery
    rw [hnew, hnumbered.calls_eq]
    exact ⟨"", by simp, by simp, .inl ⟨text, rfl, hcurrent⟩, .inl (by simp)⟩
  · have hpending := (running_sublist_pending _).subset hsearch
    have hn := hnumbered.query_eq search hpending
    rw [show queriesOf [.finish search.call results] = [] from rfl, List.append_nil]
    refine ⟨search.query, hn, ?_, .inr ⟨results, rfl, hsearch, hcurrent⟩,
      .inr (hnumbered.isSearchable search hpending)⟩
    have hsame := hnumbered.latest_eq.symm.trans hlatest
    cases hlast : (queriesOf events).getLast? with
    | none => simp [List.getLast?_eq_none_iff.mp hlast] at hn
    | some last => simpa [hlast] using hsame

/-- A call that another one has followed is published for only if its text is given
again. -/
theorem newest_or_repeated {events : List Event} {e : Event} {n : Nat}
    (h : publisher? (runEvents events) e = some n) :
    (queriesOf (events ++ [e])).length = n + 1 ∨ Repeated (events ++ [e]) n := by
  obtain ⟨query, hn, hlast, -, hnewest | hsearchable⟩ := answers_latest h
  · exact .inl hnewest
  · have hlt : n < (queriesOf (events ++ [e])).length := (List.getElem?_eq_some_iff.mp hn).1
    rcases Nat.eq_or_lt_of_le hlt with hnewest | hlater
    · exact .inl hnewest.symm
    · refine .inr ⟨(queriesOf (events ++ [e])).length - 1, query, by omega, hn, ?_, hsearchable⟩
      rw [← List.getLast?_eq_getElem?, hlast]

/-! ## All publications of a run -/

theorem publishers_concat (s : LiveSearch) (events : List Event) (e : Event) :
    publishers s (events ++ [e]) =
      publishers s events ++ (publisher? (events.foldl step s) e).toList := by
  induction events generalizing s with
  | nil => simp [publishers]
  | cons first events ih => simp [publishers, ih]

theorem lt_of_mem_publishers {events : List Event} {n : Nat}
    (h : n ∈ publishers initial events) : n < (queriesOf events).length := by
  induction events using List.reverseRecOn with
  | nil => exact absurd h List.not_mem_nil
  | append_singleton events e ih =>
      rw [publishers_concat, List.mem_append, Option.mem_toList] at h
      rcases h with h | h
      · rw [queriesOf_concat, List.length_append]
        exact Nat.lt_add_right _ (ih h)
      · have hpublished : publisher? (runEvents events) e = some n := h
        obtain ⟨query, hn, -⟩ := answers_latest hpublished
        exact (List.getElem?_eq_some_iff.mp hn).1

/-- An earlier call is published for behind a later one only if its text is given again. -/
theorem pairwise_publishers (events : List Event) :
    (publishers initial events).Pairwise fun m n => m ≤ n ∨ Repeated events n := by
  induction events using List.reverseRecOn with
  | nil => exact .nil
  | append_singleton events e ih =>
      rw [publishers_concat, List.pairwise_append]
      refine ⟨ih.imp fun hmn => hmn.imp_right fun h => h.concat e, ?_, ?_⟩
      · cases publisher? (events.foldl step initial) e with
        | none => exact .nil
        | some n => exact List.pairwise_singleton _ n
      · intro m hm n hn
        have hpublished : publisher? (runEvents events) e = some n := Option.mem_toList.mp hn
        refine (newest_or_repeated hpublished).imp_left fun hlength => ?_
        have hm := lt_of_mem_publishers hm
        rw [queriesOf_concat, List.length_append] at hlength
        omega

/-- **Nothing late is published for a text that is given once.**  Whatever is
published answers the latest text: a blank text at once, any other one by the outcome
of the search that its call has led to.  It is published for the latest call, and
behind nothing that was published for a later call, unless the text of its own call
has been given again since. -/
theorem published_before_next_call (events : List Event) :
    (∀ e n, publisher? (runEvents events) e = some n →
      ∃ query, (queriesOf (events ++ [e]))[n]? = some query ∧
        (queriesOf (events ++ [e])).getLast? = some query ∧
        ((∃ text, e = .schedule text ∧ (runEvents (events ++ [e])).current = .cleared) ∨
          ∃ results, e = .finish n results ∧ ⟨n, query⟩ ∈ (runEvents events).running ∧
            (runEvents (events ++ [e])).current = ⟨query, results⟩) ∧
        ((queriesOf (events ++ [e])).length = n + 1 ∨ Repeated (events ++ [e]) n)) ∧
      (publishers initial events).Pairwise fun m n => m ≤ n ∨ Repeated events n := by
  refine ⟨?_, pairwise_publishers events⟩
  intro e n hpublished
  obtain ⟨query, hn, hlast, hcurrent, -⟩ := answers_latest hpublished
  exact ⟨query, hn, hlast, hcurrent, newest_or_repeated hpublished⟩

/-- A text is given, another one, and the first again, while its first search runs. -/
theorem published_before_next_call_again :
    let events : List Event := [.schedule "heat", .fire, .schedule "inc", .schedule " heat "]
    publisher? (runEvents events) (.finish 0 []) = some 0 ∧
      (queriesOf (events ++ [.finish 0 []])).length = 3 ∧
      Repeated (events ++ [.finish 0 []]) 0 := by
  intro events
  have hpublished : publisher? (runEvents events) (.finish 0 []) = some 0 := by decide +kernel
  have hlength : (queriesOf (events ++ [.finish 0 []])).length = 3 := by decide +kernel
  obtain ⟨-, -, -, -, hrepeated⟩ := (published_before_next_call events).1 _ _ hpublished
  exact ⟨hpublished, hlength, hrepeated.resolve_left (by rw [hlength]; decide)⟩

/-- So it is not only for the latest call that outcomes are published, and an outcome
for an earlier call may replace what was published for a later one. -/
theorem published_for_superseded :
    (¬ ∀ (events : List Event) (e : Event) (n : Nat), publisher? (runEvents events) e = some n →
        (queriesOf (events ++ [e])).length = n + 1) ∧
      ¬ ∀ events : List Event, (publishers initial events).Pairwise (· ≤ ·) := by
  constructor
  · intro h
    have hpublished : publisher?
        (runEvents [.schedule "heat", .fire, .schedule "inc", .schedule "heat"]) (.finish 0 []) =
          some 0 := by decide +kernel
    exact absurd (h _ _ _ hpublished) (by decide +kernel)
  · intro h
    have hlate := h [.schedule "heat", .fire, .schedule "inc", .schedule "heat", .fire,
      .finish 2 [], .finish 0 []]
    have htwo : publishers initial [.schedule "heat", .fire, .schedule "inc", .schedule "heat",
      .fire, .finish 2 [], .finish 0 []] = [2, 0] := by decide +kernel
    rw [htwo] at hlate
    exact absurd hlate (by decide)

end Matinee.LiveSearch
