/-
# `Matinee.Proofs.Search.Lookups` — look-ups side by side

A search with a remote catalog begins the look-ups of all movies found at once.  They
ask and come back in any order; the search waits for them in the order of the movies,
and takes each outcome over into the movie at its place.  A `Round` is such a search
on its way.  An event that cannot happen changes nothing, so any list of events is a
run, and every interleaving is one.

What a round has joined so far is what the outcomes that have arrived make of the
movies at their places (`Kept`), wherever the others are.  So when all are joined, the
result is the one of `gather`, for every order of arrival, and that of a search which
asks for one title after the other (`search_in_any_order`).
-/
import Mathlib.Data.List.Nodup
import Mathlib.Data.List.Perm.Subperm
import Matinee.Proofs.Search.BestMatch
import Matinee.Search.Engine

namespace Matinee.Search

/-! ## Rounds -/

/-- A search whose look-ups are on their way. -/
structure Round where
  /-- The titles asked for so far, under the places of their movies. -/
  asked : List (Nat × String)
  /-- The outcomes that have come back, in the order in which they did. -/
  arrived : List (Nat × Lookup)
  /-- The movies whose look-ups have been waited for. -/
  joined : List Movie

namespace Round

inductive Event where
  /-- The look-up of the movie at a place asks for its title. -/
  | ask (i : Nat)
  /-- A look-up that has asked is over. -/
  | answer (i : Nat) (outcome : Lookup)
  /-- The search takes over the next outcome, if it is there. -/
  | join

def start : Round := ⟨[], [], []⟩

/-- What an event does in a search that has found some movies. -/
def step (found : List Movie) (r : Round) : Event → Round
  | .ask i =>
    match found[i]? with
    | some m =>
      if i ∈ r.asked.map (·.1) then r else { r with asked := r.asked ++ [(i, stripYear m.title)] }
    | none => r
  | .answer i outcome =>
    if i ∈ r.asked.map (·.1) ∧ r.arrived.lookup i = none then
      { r with arrived := r.arrived ++ [(i, outcome)] }
    else r
  | .join =>
    match found[r.joined.length]?, r.arrived.lookup r.joined.length with
    | some m, some outcome => { r with joined := r.joined ++ [decorate m outcome] }
    | _, _ => r

/-- The round after some events. -/
def run (found : List Movie) (r : Round) (events : List Event) : Round :=
  events.foldl (step found) r

/-- Every look-up has been waited for. -/
def IsOver (found : List Movie) (r : Round) : Prop := r.joined.length = found.length

instance (found : List Movie) (r : Round) : Decidable (IsOver found r) :=
  inferInstanceAs (Decidable (_ = _))

theorem run_append (found : List Movie) (r : Round) (events more : List Event) :
    run found r (events ++ more) = run found (run found r events) more :=
  List.foldl_append

variable {found : List Movie} {r : Round}

/-- What an event can do. -/
inductive Moves (found : List Movie) (r : Round) : Event → Round → Prop where
  | stay (e : Event) : Moves found r e r
  | ask {i : Nat} {m : Movie} (hm : found[i]? = some m) (hnew : i ∉ r.asked.map (·.1)) :
      Moves found r (.ask i) { r with asked := r.asked ++ [(i, stripYear m.title)] }
  | answer {i : Nat} {outcome : Lookup} (hasked : i ∈ r.asked.map (·.1))
      (hnew : r.arrived.lookup i = none) :
      Moves found r (.answer i outcome) { r with arrived := r.arrived ++ [(i, outcome)] }
  | join {m : Movie} {outcome : Lookup} (hm : found[r.joined.length]? = some m)
      (harrived : r.arrived.lookup r.joined.length = some outcome) :
      Moves found r .join { r with joined := r.joined ++ [decorate m outcome] }

theorem moves_step (found : List Movie) (r : Round) (e : Event) :
    Moves found r e (step found r e) := by
  unfold step
  split
  · split
    · rename_i m hm
      split
      · exact .stay _
      · rename_i hnew
        exact .ask hm hnew
    · exact .stay _
  · split
    · rename_i hboth
      exact .answer hboth.1 hboth.2
    · exact .stay _
  · split
    · rename_i m outcome hm harrived
      exact .join hm harrived
    · exact .stay _

/-! ## What every round keeps -/

/-- The invariant of all rounds of a search. -/
structure Kept (found : List Movie) (r : Round) : Prop where
  /-- Each place asks once, and for the title of its movie. -/
  asked_nodup : (r.asked.map (·.1)).Nodup
  asked_title : ∀ a ∈ r.asked, ∃ m, found[a.1]? = some m ∧ a.2 = stripYear m.title
  /-- Only what has been asked for arrives. -/
  asked_of_arrived : ∀ i outcome, r.arrived.lookup i = some outcome → i ∈ r.asked.map (·.1)
  /-- What has been joined has arrived, and stands in its place. -/
  joined_eq : ∀ i m', r.joined[i]? = some m' →
    ∃ m outcome, found[i]? = some m ∧ r.arrived.lookup i = some outcome ∧ m' = decorate m outcome

theorem kept_start : Kept found start where
  asked_nodup := List.nodup_nil
  asked_title := by simp [start]
  asked_of_arrived := by simp [start]
  joined_eq := by simp [start]

theorem lookup_concat (arrived : List (Nat × Lookup)) (i j : Nat) (outcome : Lookup) :
    (arrived ++ [(j, outcome)]).lookup i =
      (arrived.lookup i).or (if i = j then some outcome else none) := by
  rw [List.lookup_append, List.lookup_cons]
  by_cases hij : i = j
  · simp [hij]
  · simp [hij, beq_false_of_ne hij]

theorem Kept.moves {e : Event} {r' : Round} (h : Kept found r) (hmoves : Moves found r e r') :
    Kept found r' := by
  cases hmoves with
  | stay => exact h
  | @ask i m hm hnew =>
      refine ⟨?_, ?_, ?_, h.joined_eq⟩
      · rw [List.map_append]
        exact List.concat_eq_append ▸ List.Nodup.concat hnew h.asked_nodup
      · intro a ha
        rcases List.mem_append.mp ha with ha | ha
        · exact h.asked_title a ha
        · obtain rfl := List.mem_singleton.mp ha
          exact ⟨m, hm, rfl⟩
      · intro j outcome harrived
        rw [List.map_append]
        exact List.mem_append_left _ (h.asked_of_arrived j outcome harrived)
  | @answer i outcome hasked hnew =>
      refine ⟨h.asked_nodup, h.asked_title, ?_, ?_⟩
      · intro j other harrived
        by_cases hij : j = i
        · exact hij ▸ hasked
        · rw [lookup_concat, if_neg hij, Option.or_none] at harrived
          exact h.asked_of_arrived j other harrived
      · intro j m' hjoined
        obtain ⟨m, other, hm, harrived, rfl⟩ := h.joined_eq j m' hjoined
        exact ⟨m, other, hm, by rw [lookup_concat, harrived, Option.some_or], rfl⟩
  | @join m outcome hm harrived =>
      refine ⟨h.asked_nodup, h.asked_title, h.asked_of_arrived, ?_⟩
      intro i m' hjoined
      rcases Nat.lt_trichotomy i r.joined.length with hlt | rfl | hgt
      · exact h.joined_eq i m' (by rwa [List.getElem?_append_left hlt] at hjoined)
      · rw [List.getElem?_concat_length, Option.some_inj] at hjoined
        exact ⟨m, outcome, hm, harrived, hjoined.symm⟩
      · rw [List.getElem?_eq_none (by simpa using Nat.succ_le_of_lt hgt)] at hjoined
        exact absurd hjoined nofun

theorem Kept.run (h : Kept found r) (events : List Event) : Kept found (run found r events) := by
  induction events generalizing r with
  | nil => exact h
  | cons e events ih => exact ih (h.moves (moves_step found r e))

theorem Kept.joined_length_le (h : Kept found r) : r.joined.length ≤ found.length := by
  refine Nat.le_of_not_lt fun hlt => ?_
  obtain ⟨m, -, hm, -⟩ := h.joined_eq found.length _ (List.getElem?_eq_getElem hlt)
  simp at hm

/-! ## Rounds that are over -/

theorem Kept.arrived_of_isOver (h : Kept found r) (hover : IsOver found r) {i : Nat}
    (hi : i < found.length) : ∃ outcome, r.arrived.lookup i = some outcome := by
  have hjoined : i < r.joined.length := hover ▸ hi
  obtain ⟨-, outcome, -, harrived, -⟩ := h.joined_eq i _ (List.getElem?_eq_getElem hjoined)
  exact ⟨outcome, harrived⟩

theorem getElem?_gather (found : List Movie) (arrived : List (Nat × Lookup)) (i : Nat) :
    (gather found arrived)[i]? =
      found[i]?.map fun m => ((arrived.lookup i).map (decorate m)).getD m := by
  rw [gather, List.getElem?_mapIdx]
  cases arrived.lookup i <;> rfl

/-- Whatever came back first, each movie has the outcome of its own look-up. -/
theorem Kept.joined_eq_gather (h : Kept found r) (hover : IsOver found r) :
    r.joined = gather found r.arrived := by
  refine List.ext_getElem? fun i => ?_
  rw [getElem?_gather]
  cases hjoined : r.joined[i]? with
  | none =>
      have hnone : found[i]? = none := by
        rw [List.getElem?_eq_none_iff] at hjoined ⊢
        exact hover ▸ hjoined
      rw [hnone, Option.map_none]
  | some m' =>
      obtain ⟨m, outcome, hm, harrived, rfl⟩ := h.joined_eq i m' hjoined
      rw [hm, harrived, Option.map_some, Option.map_some, Option.getD_some]

/-- The titles that a search asks for, each under the place of its movie. -/
def questions (found : List Movie) : List (Nat × String) :=
  found.mapIdx fun i m => (i, stripYear m.title)

theorem mem_questions_iff {a : Nat × String} :
    a ∈ questions found ↔ ∃ m, found[a.1]? = some m ∧ a.2 = stripYear m.title := by
  rw [questions, List.mem_mapIdx]
  constructor
  · rintro ⟨i, hi, rfl⟩
    exact ⟨found[i], List.getElem?_eq_getElem hi, rfl⟩
  · rintro ⟨m, hm, htitle⟩
    obtain ⟨hi, rfl⟩ := List.getElem?_eq_some_iff.mp hm
    exact ⟨a.1, hi, Prod.ext rfl htitle.symm⟩

theorem nodup_questions (found : List Movie) : (questions found).Nodup := by
  have hplaces : (questions found).map (·.1) = List.range found.length :=
    List.ext_getElem (by simp [questions]) (by simp [questions])
  exact List.Nodup.of_map (·.1) (hplaces ▸ List.nodup_range)

theorem Kept.asked_subperm (h : Kept found r) : r.asked.Subperm (questions found) :=
  List.subperm_of_subset h.asked_nodup.of_map fun a ha =>
    mem_questions_iff.mpr (h.asked_title a ha)

theorem Kept.asked_perm (h : Kept found r) (hover : IsOver found r) :
    r.asked.Perm (questions found) := by
  refine h.asked_subperm.antisymm ?_
  refine List.subperm_of_subset (nodup_questions found) fun a ha => ?_
  obtain ⟨m, hm, htitle⟩ := mem_questions_iff.mp ha
  obtain ⟨outcome, harrived⟩ :=
    h.arrived_of_isOver hover (List.getElem?_eq_some_iff.mp hm).1
  obtain ⟨b, hb, hplace⟩ := List.mem_map.mp (h.asked_of_arrived _ _ harrived)
  obtain ⟨m', hm', htitle'⟩ := h.asked_title b hb
  rw [hplace, hm, Option.some_inj] at hm'
  have hba : b = a := Prod.ext hplace (htitle'.trans (hm' ▸ htitle.symm))
  exact hba ▸ hb

/-! ## Every search comes to its end -/

theorem arrived_run_ask_answer {i : Nat} (hi : i < found.length) (outcome : Lookup) (j : Nat) :
    (run found r [.ask i, .answer i outcome]).arrived.lookup j =
      (r.arrived.lookup j).or (if j = i then some outcome else none) := by
  have hasked : i ∈ (step found r (.ask i)).asked.map (·.1) := by
    simp only [step, List.getElem?_eq_getElem hi]
    split
    · assumption
    · simp
  have hsame : (step found r (.ask i)).arrived = r.arrived := by
    simp only [step, List.getElem?_eq_getElem hi]
    split <;> rfl
  change (step found (step found r (.ask i)) (.answer i outcome)).arrived.lookup j = _
  generalize step found r (.ask i) = r' at hasked hsame
  by_cases hnew : r.arrived.lookup i = none
  · simp only [step, hsame, hasked, hnew, and_self, if_true, lookup_concat]
  · simp only [step, hsame, hnew, and_false, if_false]
    by_cases hij : j = i
    · obtain ⟨other, hother⟩ := Option.ne_none_iff_exists'.mp hnew
      rw [hij, hother, Option.some_or]
    · rw [if_neg hij, Option.or_none]

/-- The look-ups of some places come back one after another. -/
def comeBack (answers : Nat → Lookup) (places : List Nat) : List Event :=
  places.flatMap fun i => [.ask i, .answer i (answers i)]

theorem arrived_run_comeBack (answers : Nat → Lookup) {places : List Nat}
    (hplaces : ∀ i ∈ places, i < found.length) (r : Round) (j : Nat) :
    (run found r (comeBack answers places)).arrived.lookup j =
      (r.arrived.lookup j).or (if j ∈ places then some (answers j) else none) := by
  induction places generalizing r with
  | nil => simp [comeBack, run]
  | cons i places ih =>
      rw [comeBack, List.flatMap_cons, run_append]
      rw [← comeBack, ih (fun k hk => hplaces k (List.mem_cons_of_mem _ hk)),
        arrived_run_ask_answer (hplaces i List.mem_cons_self)]
      by_cases hij : j = i
      · subst hij
        cases r.arrived.lookup j <;> simp
      · simp [hij]

theorem isOver_run_join {r : Round}
    (harrived : ∀ i < found.length, ∃ outcome, r.arrived.lookup i = some outcome) {k : Nat}
    (hk : r.joined.length + k = found.length) :
    IsOver found (run found r (List.replicate k .join)) ∧
      (run found r (List.replicate k .join)).arrived = r.arrived := by
  induction k generalizing r with
  | zero => exact ⟨hk, rfl⟩
  | succ k ih =>
      have hlt : r.joined.length < found.length := by omega
      obtain ⟨outcome, houtcome⟩ := harrived _ hlt
      have hstep : step found r .join =
          { r with joined := r.joined ++ [decorate found[r.joined.length] outcome] } := by
        simp only [step, List.getElem?_eq_getElem hlt, houtcome]
      rw [List.replicate_succ]
      change IsOver found (run found (step found r .join) _) ∧
        (run found (step found r .join) _).arrived = _
      rw [hstep]
      exact ih harrived (by rw [List.length_append, List.length_singleton]; omega)

/-- Whatever the look-ups that are still out come to, the search can go on to its end
with it. -/
theorem Kept.exists_isOver (h : Kept found r) (answers : Nat → Lookup) :
    ∃ more, IsOver found (Round.run found r more) ∧ ∀ i < found.length,
      (Round.run found r more).arrived.lookup i =
        (r.arrived.lookup i).or (some (answers i)) := by
  have hplaces : ∀ i ∈ List.range found.length, i < found.length := fun i => List.mem_range.mp
  have harrived : ∀ i < found.length,
      (Round.run found r (comeBack answers (List.range found.length))).arrived.lookup i =
        (r.arrived.lookup i).or (some (answers i)) := by
    intro i hi
    rw [arrived_run_comeBack answers hplaces, if_pos (List.mem_range.mpr hi)]
  have hkept := h.run (comeBack answers (List.range found.length))
  generalize hback : Round.run found r (comeBack answers (List.range found.length)) = r'
    at harrived hkept
  have hall : ∀ i < found.length, ∃ outcome, r'.arrived.lookup i = some outcome := by
    intro i hi
    rw [harrived i hi]
    cases r.arrived.lookup i <;> simp
  obtain ⟨hover, hsame⟩ :=
    isOver_run_join hall (Nat.add_sub_cancel' hkept.joined_length_le)
  refine ⟨comeBack answers (List.range found.length) ++
    List.replicate (found.length - r'.joined.length) .join, ?_, ?_⟩
  · rw [run_append, hback]
    exact hover
  · intro i hi
    rw [run_append, hback, hsame, harrived i hi]

end Round

/-! ## One movie and its look-up -/

theorem decorate_identity (m : Movie) (outcome : Lookup) :
    (decorate m outcome).id = m.id ∧ (decorate m outcome).title = m.title ∧
      (decorate m outcome).genres = m.genres := by
  unfold decorate
  split
  · split
    · exact Movie.enrich_identity m _
    · exact ⟨rfl, rfl, rfl⟩
  all_goals exact ⟨rfl, rfl, rfl⟩

theorem decorate_found (m : Movie) {movies : List Movie} (h : movies ≠ []) :
    ∃ best, bestMatch m.title movies = some best ∧ decorate m (.found movies) = m.enrich best := by
  obtain ⟨best, hbest, -⟩ := exists_firstLeast m.title h
  exact ⟨best, hbest, by simp only [decorate, hbest]⟩

theorem decorate_unchanged (m : Movie) {outcome : Lookup}
    (h : ∀ movies, outcome = .found movies → movies = []) : decorate m outcome = m := by
  cases outcome with
  | found movies =>
      obtain rfl := h movies rfl
      rfl
  | failed _ => rfl
  | crashed => rfl

/-! ## One look-up after the other -/

/-- What a query finds without a remote catalog. -/
def offline (entries : List CatalogEntry) (query : String) (limit : Nat) : List Movie :=
  Id.run (search (pure entries) none query limit)

theorem candidates_of_not_isSearchable (entries : List CatalogEntry) {query : String}
    (h : isSearchable query = false) (limit : Nat) : candidates entries query limit = [] := by
  simp [candidates, rank, h]

theorem offline_eq (entries : List CatalogEntry) (query : String) (limit : Nat) :
    offline entries query limit = candidates entries query limit := by
  cases h : isSearchable query with
  | false => simp [offline, search, h, candidates_of_not_isSearchable]
  | true => simp [offline, search, h]

/-- A remote catalog that gives some outcomes one after another, and takes down the
titles that it is asked for. -/
def scripted (title : String) : StateM (List Lookup × List String) Lookup := fun (outcomes, titles) =>
  (outcomes.head?.getD .crashed, outcomes.tail, titles ++ [title])

theorem run_mapM_scripted {titles : List String} {outcomes : List Lookup}
    (h : outcomes.length = titles.length) (before : List String) :
    (titles.mapM scripted).run (outcomes, before) = (outcomes, [], before ++ titles) := by
  induction titles generalizing outcomes before with
  | nil =>
      obtain rfl := List.length_eq_zero_iff.mp h
      rw [List.append_nil]
      rfl
  | cons title titles ih =>
      cases outcomes with
      | nil => exact absurd h nofun
      | cons outcome outcomes =>
          have hfirst : (scripted title).run (outcome :: outcomes, before) =
              (outcome, outcomes, before ++ [title]) := rfl
          have hrest := ih (Nat.succ.inj h) (before ++ [title])
          rw [List.append_assoc, List.singleton_append] at hrest
          rw [List.mapM_cons, StateT.run_bind, hfirst]
          change ((titles.mapM scripted >>= fun rest => pure (outcome :: rest)).run
            (outcomes, before ++ [title])) = _
          rw [StateT.run_bind, hrest]
          rfl

theorem lookup_mapIdx (outcomes : List Lookup) (k i : Nat) :
    (outcomes.mapIdx fun j outcome => (j + k, outcome)).lookup (i + k) = outcomes[i]? := by
  induction outcomes generalizing k i with
  | nil => rfl
  | cons outcome outcomes ih =>
      rw [List.mapIdx_cons]
      cases i with
      | zero => rw [List.lookup_cons_self, List.getElem?_cons_zero]
      | succ i =>
          have hne : (i + 1 + k == 0 + k) = false := beq_false_of_ne (by omega)
          have hshift := ih (k + 1) i
          simp only [List.lookup_cons, hne, List.getElem?_cons_succ]
          rw [← hshift]
          congr 1
          · omega
          · congr 1
            funext j outcome
            congr 1
            omega

/-- In what order the outcomes have come back is all one. -/
theorem gather_mapIdx {found : List Movie} {arrived : List (Nat × Lookup)} {outcomes : List Lookup}
    (h : ∀ i < found.length, arrived.lookup i = outcomes[i]?) :
    gather found (outcomes.mapIdx fun i outcome => (i, outcome)) = gather found arrived := by
  refine List.ext_getElem? fun i => ?_
  rw [Round.getElem?_gather, Round.getElem?_gather]
  cases hm : found[i]? with
  | none => rfl
  | some m =>
      have hlookup := lookup_mapIdx outcomes 0 i
      rw [h i (List.getElem?_eq_some_iff.mp hm).1, ← hlookup]
      rfl

theorem run_search_scripted (entries : List CatalogEntry) (query : String) (limit : Nat)
    {outcomes : List Lookup} (h : outcomes.length = (offline entries query limit).length) :
    (search (pure entries) (some scripted) query limit).run (outcomes, []) =
      (gather (offline entries query limit) (outcomes.mapIdx fun i outcome => (i, outcome)), [],
        askedTitles (offline entries query limit)) := by
  rw [offline_eq] at h ⊢
  cases hs : isSearchable query with
  | false =>
      rw [candidates_of_not_isSearchable entries hs] at h ⊢
      obtain rfl := List.length_eq_zero_iff.mp h
      simp only [search, hs]
      rfl
  | true =>
      have htitles : outcomes.length = (askedTitles (candidates entries query limit)).length := by
        rw [h, askedTitles, List.length_map]
      simp only [search, hs, Bool.not_true, Bool.false_eq_true, if_false, pure_bind,
        StateT.run_bind, run_mapM_scripted htitles]
      rfl

/-! ## Every order -/

/-- What a search without a remote catalog finds, with each movie decorated by its own
look-up. -/
structure Enriched (offline : List Movie) (r : Round) : Prop where
  length_eq : r.joined.length = offline.length
  identity : ∀ (i : Nat) (m m' : Movie), offline[i]? = some m → r.joined[i]? = some m' →
    m'.id = m.id ∧ m'.title = m.title ∧ m'.genres = m.genres
  enriched : ∀ (i : Nat) (m : Movie) (movies : List Movie), offline[i]? = some m →
    r.arrived.lookup i = some (.found movies) → movies ≠ [] →
      ∃ best, bestMatch m.title movies = some best ∧ r.joined[i]? = some (m.enrich best)
  unchanged : ∀ (i : Nat) (m : Movie), offline[i]? = some m →
    (∀ movies, r.arrived.lookup i = some (.found movies) → movies = []) →
      r.joined[i]? = some m
  asked_once : r.asked.Perm (Round.questions offline)

open Round (Kept IsOver)

variable {found : List Movie} {r : Round}

theorem enriched_of_isOver (h : Kept found r) (hover : IsOver found r) : Enriched found r := by
  have hjoined {i : Nat} {m : Movie} (hm : found[i]? = some m) :
      ∃ outcome, r.arrived.lookup i = some outcome ∧ r.joined[i]? = some (decorate m outcome) := by
    obtain ⟨outcome, harrived⟩ :=
      h.arrived_of_isOver hover (List.getElem?_eq_some_iff.mp hm).1
    refine ⟨outcome, harrived, ?_⟩
    rw [h.joined_eq_gather hover, Round.getElem?_gather, hm, harrived]
    rfl
  refine ⟨hover, ?_, ?_, ?_, h.asked_perm hover⟩
  · intro i m m' hm hm'
    obtain ⟨outcome, -, heq⟩ := hjoined hm
    rw [heq, Option.some_inj] at hm'
    exact hm' ▸ decorate_identity m outcome
  · intro i m movies hm harrived hne
    obtain ⟨outcome, harrived', heq⟩ := hjoined hm
    obtain rfl := Option.some_inj.mp (harrived.symm.trans harrived')
    obtain ⟨best, hbest, hdecorate⟩ := decorate_found m hne
    exact ⟨best, hbest, hdecorate ▸ heq⟩
  · intro i m hm hnothing
    obtain ⟨outcome, harrived, heq⟩ := hjoined hm
    rw [heq, decorate_unchanged m fun movies hfound => hnothing movies (hfound ▸ harrived)]

theorem exists_outcomes (h : Kept found r) (hover : IsOver found r) :
    ∃ outcomes : List Lookup, outcomes.length = found.length ∧
      ∀ i, outcomes[i]? = r.arrived.lookup i := by
  refine ⟨(List.range found.length).map fun i => (r.arrived.lookup i).getD .crashed,
    by simp, fun i => ?_⟩
  rw [List.getElem?_map]
  rcases Nat.lt_or_ge i found.length with hi | hi
  · obtain ⟨outcome, harrived⟩ := h.arrived_of_isOver hover hi
    simp [hi, harrived]
  · rw [List.getElem?_eq_none (by simpa using hi), Option.map_none]
    cases harrived : r.arrived.lookup i with
    | none => rfl
    | some outcome =>
        obtain ⟨a, ha, hplace⟩ := List.mem_map.mp (h.asked_of_arrived i outcome harrived)
        obtain ⟨m, hm, -⟩ := h.asked_title a ha
        have hlt := (List.getElem?_eq_some_iff.mp hm).1
        omega

/-- **The look-ups of a search may come back in any order.**  At every moment each movie
found has been asked for at most once, under its title without the year, and nothing
is asked for if the query is too short or finds nothing.  Whatever the look-ups come
to, the search reaches its end.  Its result then is the one without a remote catalog,
each movie decorated by its own look-up and by no other; and it is that of a search
which asks for one title after the other. -/
theorem search_in_any_order (entries : List CatalogEntry) (query : String) (limit : Nat)
    (events : List Round.Event) :
    let plain := offline entries query limit
    let r := Round.run plain .start events
    r.asked.Subperm (Round.questions plain) ∧
      (isSearchable query = false ∨ plain = [] → r.asked = []) ∧
      (∀ answers : Nat → Lookup, ∃ more, IsOver plain (Round.run plain r more) ∧
        ∀ i < plain.length, (Round.run plain r more).arrived.lookup i =
          (r.arrived.lookup i).or (some (answers i))) ∧
      (IsOver plain r → Enriched plain r ∧
        (∃ outcomes : List Lookup, (∀ i, outcomes[i]? = r.arrived.lookup i) ∧
          (search (pure entries) (some scripted) query limit).run (outcomes, []) =
            (r.joined, [], askedTitles plain)) ∧
        ∀ others i, IsOver plain (Round.run plain .start others) →
          (Round.run plain .start others).arrived.lookup i = r.arrived.lookup i →
          (Round.run plain .start others).joined[i]? = r.joined[i]?) := by
  intro plain r
  have hkept (events : List Round.Event) : Kept plain (Round.run plain .start events) :=
    Round.kept_start.run events
  refine ⟨(hkept events).asked_subperm, ?_, (hkept events).exists_isOver, fun hover => ?_⟩
  · intro hnothing
    have hplain : plain = [] := by
      rcases hnothing with hshort | hplain
      · exact (offline_eq entries query limit).trans
          (candidates_of_not_isSearchable entries hshort limit)
      · exact hplain
    have hquestions : Round.questions plain = [] := congrArg Round.questions hplain
    exact List.subperm_nil.mp (hquestions ▸ (hkept events).asked_subperm)
  · refine ⟨enriched_of_isOver (hkept events) hover, ?_, ?_⟩
    · obtain ⟨outcomes, hlength, hsame⟩ := exists_outcomes (hkept events) hover
      refine ⟨outcomes, hsame, ?_⟩
      rw [run_search_scripted entries query limit hlength, (hkept events).joined_eq_gather hover,
        gather_mapIdx fun i _ => (hsame i).symm]
    · intro others i hothers hsame
      rw [(hkept others).joined_eq_gather hothers, (hkept events).joined_eq_gather hover,
        Round.getElem?_gather, Round.getElem?_gather, hsame]

deriving instance DecidableEq for Lookup

/-- The second look-up is over before the first one, which crashes; or the first one comes
back early, with nothing.  Both leave the second movie the same. -/
theorem search_in_any_order_crossed :
    let entries : List CatalogEntry := [⟨1, "Heat (1995)", []⟩, ⟨2, "Heat Wave (2022)", []⟩]
    let remote : Movie := ⟨9, "Heat Wave", [], none, some 8.0, none, none, none⟩
    let plain := offline entries "heat" 5
    let crossed : List Round.Event := [.ask 1, .ask 0, .answer 1 (.found [remote]), .join,
      .answer 0 .crashed, .join, .join]
    let straight : List Round.Event := [.ask 0, .answer 0 (.found []), .ask 1, .join,
      .answer 1 (.found [remote]), .join]
    IsOver plain (Round.run plain .start crossed) ∧ IsOver plain (Round.run plain .start straight) ∧
      Enriched plain (Round.run plain .start crossed) ∧
      (Round.run plain .start straight).joined[1]? = (Round.run plain .start crossed).joined[1]? ∧
      (Round.run plain .start crossed).joined[1]?.map (·.fivePoint) = some (some 4.0) ∧
      isSearchable "h" = false ∧
      (Round.run (offline entries "h" 5) .start crossed).asked = [] := by
  intro entries remote plain crossed straight
  have hplain : plain = [.bare 1 "Heat (1995)" [], .bare 2 "Heat Wave (2022)" []] := by
    decide +kernel
  have hcrossed : IsOver plain (Round.run plain .start crossed) := by
    rw [hplain]
    decide +kernel
  have hstraight : IsOver plain (Round.run plain .start straight) := by
    rw [hplain]
    decide +kernel
  have hsame : (Round.run plain .start straight).arrived.lookup 1 =
      (Round.run plain .start crossed).arrived.lookup 1 := by
    rw [hplain]
    decide +kernel
  have hshort : isSearchable "h" = false := by decide +kernel
  obtain ⟨-, -, -, hend⟩ := search_in_any_order entries "heat" 5 crossed
  obtain ⟨henriched, -, hown⟩ := hend hcrossed
  exact ⟨hcrossed, hstraight, henriched, hown straight 1 hstraight hsame,
    by rw [hplain]; decide +kernel, hshort,
    (search_in_any_order entries "h" 5 crossed).2.1 (.inl hshort)⟩

end Matinee.Search
