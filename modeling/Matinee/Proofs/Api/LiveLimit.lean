/-
# `Matinee.Proofs.Api.LiveLimit` — a search is the beginning of the live search

A search and the live search find their limits on their own.  Without a limit of its own
a request is limited by the settings and by `maxLimit`, the live search by the settings
only.  So for one text the response to a request has the first `maxLimit` of the movies
that the live search publishes (`search_cuts_live`); they are the same movies as long as
the settings ask for no more than that, and not beyond (`live_exceeds_search`).

Nothing else can come between the two.  Other requests leave settings and live search
alone (`heard_handle`), the catalog does not matter before it is read nor after, and when
time has passed the live search is at rest.  So the invariant of all visits is that the
service is at rest (`AtRest`).
-/
import Matinee.Proofs.Api.Steady
import Matinee.Proofs.LiveSearch.AtRest

namespace Matinee

namespace Api

/-- What happens to the service: requests come in, and time passes between them. -/
inductive Visit where
  | request (r : Http.Request)
  | wait (ms : Nat)

namespace Visit

/-- The text that a visit gives to the live search. -/
def text? : Visit → Option String
  | .request r => Unchanging.typed? r
  | .wait _ => none

/-- How long some visits take. -/
def duration : List Visit → Nat
  | [] => 0
  | .request _ :: visits => duration visits
  | .wait ms :: visits => ms + duration visits

theorem duration_cons (v : Visit) (visits : List Visit) :
    duration (v :: visits) = duration [v] + duration visits := by
  cases v with
  | request r => exact (Nat.zero_add _).symm
  | wait ms => rfl

end Visit

end Api

open Api LiveSearch

namespace Unchanging

variable {σ : Type} (o : Unchanging σ)

/-- The service after a visit, and what lies outside then. -/
def step (x : Service × σ) : Visit → Service × σ
  | .request r =>
    let y := ((handle o.world r).run x.1).run x.2
    (y.1.2, y.2)
  | .wait ms =>
    let y := ((Service.elapse o.world ms).run x.1).run x.2
    (y.1.2, y.2)

/-- The same after some visits, one after another. -/
def after (x : Service × σ) (visits : List Visit) : Service × σ := visits.foldl o.step x

/-- The service after some visits from its start. -/
def opened (settings : Settings) (a : σ) (visits : List Visit) : Service × σ :=
  o.after (.start settings, a) visits

/-- The response to a request. -/
def response (x : Service × σ) (r : Http.Request) : Response :=
  (((handle o.world r).run x.1).run x.2).1.1

/-- What the live search answers. -/
def answer (settings : Settings) (query : String) : List Movie :=
  o.found settings query settings.searchLimit

/-! ## Time -/

variable {o} {s : Service} {settings : Settings}

theorem advance_world (h : o.Fits s) (hrest : Clocked.AtRest (o.answer s.settings) s.live)
    (ms : Nat) (a : σ) :
    ∃ s', o.Same s s' ∧
      ((s.live.advance (Service.liveSearcher o.world) ms).run s).run a =
        ((s.live.rested (o.answer s.settings) ms, s'), a) := by
  have hidle (h' : s.live.live.timer = none ∨ s.live.now + ms ≤ s.live.timerDue) :
      s.live.advance (Service.liveSearcher o.world) ms =
        pure { s.live with now := s.live.now + ms } :=
    Clocked.advance_of_not_due _ hrest.endings h'
  unfold Clocked.rested
  cases htimer : s.live.live.timer with
  | none =>
      rw [hidle (.inl htimer)]
      exact ⟨s, .refl h, rfl⟩
  | some begun =>
      by_cases hdue : s.live.timerDue < s.live.now + ms
      · have hsearch (query : String) : Service.liveSearcher o.world query =
            (fun results => (results, 0)) <$> (do
              Service.search o.world query (← get).settings.searchLimit) := by
          simp [Service.liveSearcher]
        obtain ⟨s', hsame, hrun⟩ := search_world h begun.query s.settings.searchLimit a
        rw [Clocked.advance_of_due hsearch hrest.endings htimer (hrest.waiting begun htimer).2 hdue,
          StateT.run_map, StateT.run_bind, StateT.run_get, pure_bind, StateT.run_map, hrun]
        simp only [if_pos hdue]
        exact ⟨s', hsame, rfl⟩
      · rw [hidle (.inr (Nat.le_of_not_lt hdue))]
        simp only [if_neg hdue]
        exact ⟨s, .refl h, rfl⟩

theorem elapse_world (h : o.Fits s) (hrest : Clocked.AtRest (o.answer s.settings) s.live)
    (ms : Nat) (a : σ) :
    ∃ s', o.Same s s' ∧ ((Service.elapse o.world ms).run s).run a =
      (((), { s' with live := s.live.rested (o.answer s.settings) ms }), a) := by
  obtain ⟨s', hsame, hrun⟩ := advance_world h hrest ms a
  exact ⟨s', hsame, congrArg (fun x : (Clocked × Service) × σ =>
    (((), ({ x.1.2 with live := x.1.1 } : Service)), x.2)) hrun⟩

/-! ## At rest -/

/-- The invariant of all visits. -/
structure AtRest (o : Unchanging σ) (settings : Settings) (s : Service) : Prop where
  settings_eq : s.settings = settings
  fits : o.Fits s
  live : Clocked.AtRest (o.answer settings) s.live

theorem atRest_start (o : Unchanging σ) (settings : Settings) :
    o.AtRest settings (.start settings) :=
  ⟨rfl, nofun, Clocked.atRest_initial⟩

/-- All that a visit does to the live search. -/
structure Leaves (o : Unchanging σ) (settings : Settings) (v : Visit) (s s' : Service) : Prop where
  atRest : o.AtRest settings s'
  now : s'.live.now = s.live.now + Visit.duration [v]
  latest : s'.live.live.latest = (v.text?.map queryOf).getD s.live.live.latest
  due : s'.live.timerDue =
    (v.text?.map fun _ => s.live.now + settings.pause).getD s.live.timerDue

theorem AtRest.step {x : Service × σ} (h : o.AtRest settings x.1) (v : Visit) :
    o.Leaves settings v x.1 (o.step x v).1 := by
  obtain ⟨s, a⟩ := x
  obtain ⟨rfl, hfits, hlive⟩ := h
  cases v with
  | request r =>
      obtain ⟨hsettings, hheard, hfits'⟩ := heard_handle hfits r a
      change o.Leaves _ _ s (((handle o.world r).run s).run a).1.2
      generalize (((handle o.world r).run s).run a).1.2 = s' at hsettings hheard hfits'
      cases htext : typed? r with
      | none =>
          replace hheard : s'.live = s.live := by rw [hheard, htext]; rfl
          refine ⟨⟨hsettings, hfits', hheard ▸ hlive⟩, congrArg Clocked.now hheard, ?_, ?_⟩
          · simp [Visit.text?, htext, hheard]
          · simp [Visit.text?, htext, hheard]
      | some text =>
          replace hheard : s'.live = s.live.schedule s.settings.pause text := by
            rw [hheard, htext]
            rfl
          have hrest : Clocked.AtRest (o.answer s.settings) s'.live := by
            rw [hheard]
            exact hlive.schedule _ text
          refine ⟨⟨hsettings, hfits', hrest⟩, ?_, ?_, ?_⟩
          · rw [hheard]
            rfl
          · simp [Visit.text?, htext, hheard, Clocked.schedule, schedule_eq]
          · simp [Visit.text?, htext, hheard, Clocked.schedule]
  | wait ms =>
      obtain ⟨s', hsame, hrun⟩ := elapse_world hfits hlive ms a
      have hstep : (o.step (s, a) (.wait ms)).1 =
          { s' with live := s.live.rested (o.answer s.settings) ms } := congrArg (·.1.2) hrun
      obtain ⟨hrest, hlatest, hdue, hnow⟩ := hlive.rested ms
      rw [hstep]
      exact ⟨⟨hsame.settings, hsame.fits, hrest⟩, hnow, hlatest, hdue⟩

/-! ## Whole runs -/

theorem after_append (o : Unchanging σ) (x : Service × σ) (visits more : List Visit) :
    o.after x (visits ++ more) = o.after (o.after x visits) more :=
  List.foldl_append

theorem AtRest.after {x : Service × σ} (h : o.AtRest settings x.1) (visits : List Visit) :
    o.AtRest settings (o.after x visits).1 := by
  induction visits generalizing x with
  | nil => exact h
  | cons v visits ih => exact ih (h.step v).atRest

/-- As long as no text is given, nothing but time changes. -/
theorem AtRest.after_quiet {x : Service × σ} (h : o.AtRest settings x.1) {visits : List Visit}
    (hquiet : ∀ v ∈ visits, v.text? = none) :
    (o.after x visits).1.live.now = x.1.live.now + Visit.duration visits ∧
      (o.after x visits).1.live.live.latest = x.1.live.live.latest ∧
      (o.after x visits).1.live.timerDue = x.1.live.timerDue := by
  induction visits generalizing x with
  | nil => exact ⟨rfl, rfl, rfl⟩
  | cons v visits ih =>
      have hstep := h.step v
      obtain ⟨hnow, hlatest, hdue⟩ :=
        ih hstep.atRest fun v' hv' => hquiet v' (List.mem_cons_of_mem v hv')
      have hnone := hquiet v List.mem_cons_self
      have hlatest' := hstep.latest
      have hdue' := hstep.due
      rw [hnone] at hlatest' hdue'
      refine ⟨?_, hlatest.trans hlatest', hdue.trans hdue'⟩
      rw [Visit.duration_cons, ← Nat.add_assoc, ← hstep.now]
      exact hnow

/-- Once the pause is over, the text that was given last has its answer. -/
theorem AtRest.current_after {x : Service × σ} (h : o.AtRest settings x.1) {put : Http.Request}
    {text : String} (hput : typed? put = some text)
    (hlong : 2 ≤ (Text.trim text.toList).length) {visits : List Visit}
    (hquiet : ∀ v ∈ visits, v.text? = none) (hpause : settings.pause < Visit.duration visits) :
    (o.after x (.request put :: visits)).1.live.live.current =
      ⟨queryOf text, o.answer settings (queryOf text)⟩ := by
  have hstep := h.step (.request put)
  obtain ⟨hnow, hlatest, hdue⟩ := hstep.atRest.after_quiet hquiet
  have hrest := (hstep.atRest.after visits).live
  change (o.after (o.step x (.request put)) visits).1.live.live.current = _
  generalize o.after (o.step x (.request put)) visits = y at hnow hlatest hdue hrest
  have hlatest' : y.1.live.live.latest = queryOf text := by
    rw [hlatest, hstep.latest, Visit.text?, hput]
    rfl
  have hnow' : y.1.live.now = x.1.live.now + Visit.duration visits := by
    rw [hnow, hstep.now]
    rfl
  have hdue' : y.1.live.timerDue = x.1.live.now + settings.pause := by
    rw [hdue, hstep.due, Visit.text?, hput]
    rfl
  -- A text that still waited would have to wait for a moment that is over.
  have htimer : y.1.live.live.timer = none := by
    cases hwaits : y.1.live.live.timer with
    | none => rfl
    | some begun =>
        have hlate := (hrest.waiting begun hwaits).2
        omega
  have hsettled := hrest.settled htimer
  rw [hlatest'] at hsettled
  exact hsettled (by rw [isSearchable_queryOf]; exact decide_eq_true hlong)

theorem answer_queryOf (o : Unchanging σ) (settings : Settings) (text : String) :
    o.answer settings (queryOf text) = o.answer settings text := by
  rw [answer, found, queryOf, Search.candidates_trimmed]
  rfl

theorem found_min (o : Unchanging σ) (settings : Settings) (query : String) (limit : Nat) :
    o.found settings query (min limit maxLimit) = (o.found settings query limit).take maxLimit := by
  rw [found, Nat.min_comm, Search.candidates_min, Search.decorated_take]
  rfl

theorem length_found_le (o : Unchanging σ) (settings : Settings) (query : String) (limit : Nat) :
    (o.found settings query limit).length ≤ limit := by
  rw [found, Search.length_decorated]
  exact Search.length_candidates_le _ query limit

theorem atRest_opened (o : Unchanging σ) (settings : Settings) (a : σ) (visits : List Visit) :
    o.AtRest settings (o.opened settings a visits).1 := by
  have hstart : o.AtRest settings ((.start settings, a) : Service × σ).1 := o.atRest_start settings
  exact hstart.after visits

/-! ## Two ways to the same movies -/

theorem tells_search_after (o : Unchanging σ) (settings : Settings) (a : σ) (visits : List Visit)
    {get : Http.Request} {text : String} {limit : Option Nat}
    (hget : asked? get = some ⟨text, limit⟩) :
    Tells (o.response (o.opened settings a visits) get) (Movie.listToJson
      ((o.found settings text (limit.getD settings.searchLimit)).take maxLimit)) := by
  have hrest := o.atRest_opened settings a visits
  have hanswer := tells_search hrest.fits hget (o.opened settings a visits).2
  rw [hrest.settings_eq, found_min] at hanswer
  exact hanswer

theorem tells_live_after (o : Unchanging σ) (settings : Settings) (a : σ)
    (before visits : List Visit) {put live : Http.Request} {text : String}
    (hlong : 2 ≤ (Text.trim text.toList).length) (hput : typed? put = some text)
    (hquiet : ∀ v ∈ visits, v.text? = none) (hpause : settings.pause < Visit.duration visits)
    (hlive : AsksLive live) :
    Tells (o.response (o.opened settings a (before ++ .request put :: visits)) live)
      (snapshot ⟨queryOf text, o.answer settings text⟩) := by
  have hcurrent := (o.atRest_opened settings a before).current_after hput hlong hquiet hpause
  rw [opened, ← after_append, answer_queryOf] at hcurrent
  rw [← hcurrent]
  exact tells_live hlive _ _

/-- **A search is the beginning of the live search.**  Whatever else has been done to the
service, with the catalog and the answers of the remote catalog given: when the pause
after a text of two characters or more is over, the live search publishes what the text
finds, as many movies as the settings allow.  A search for that text without a limit of
its own, at any time, is answered with the first `maxLimit` of these; with all of them
if the settings do not allow more.  No search is answered with more than `maxLimit`. -/
theorem search_cuts_live (o : Unchanging σ) (settings : Settings) (a : σ)
    (before visits others : List Visit) {put live get : Http.Request} {text : String}
    (hlong : 2 ≤ (Text.trim text.toList).length) (hput : typed? put = some text)
    (hquiet : ∀ v ∈ visits, v.text? = none) (hpause : settings.pause < Visit.duration visits)
    (hlive : AsksLive live) (hget : asked? get = some ⟨text, none⟩) :
    let published := o.answer settings text
    Tells (o.response (o.opened settings a (before ++ .request put :: visits)) live)
        (snapshot ⟨String.ofList (Text.trim text.toList), published⟩) ∧
      Tells (o.response (o.opened settings a others) get)
        (Movie.listToJson (published.take maxLimit)) ∧
      published.length ≤ settings.searchLimit ∧
      (settings.searchLimit ≤ maxLimit → published.take maxLimit = published) ∧
      ∀ r q, asked? r = some q → ∃ movies : List Movie, movies.length ≤ maxLimit ∧
        Tells (o.response (o.opened settings a others) r) (Movie.listToJson movies) := by
  intro published
  have hlength : published.length ≤ settings.searchLimit := length_found_le o settings text _
  refine ⟨?_, ?_, hlength, ?_, ?_⟩
  · exact tells_live_after o settings a before visits hlong hput hquiet hpause hlive
  · have hfound := tells_search_after o settings a others hget
    rw [Option.getD_none] at hfound
    exact hfound
  · intro hlimit
    exact List.take_of_length_le (Nat.le_trans hlength hlimit)
  · intro r q hr
    have hanswer := tells_search_after o settings a others hr
    exact ⟨_, List.length_take_le _ _, hanswer⟩

/-- A world with one movie many times in its catalog, and nothing else. -/
def crowd (n : Nat) : Unchanging Unit where
  file := fun _ => .ok (Text.Utf8.encode
    ("movieId,title,genres\n".toList ++ (List.replicate n "1,Heat,Crime\n".toList).flatten))
  exchange := ⟨fun _ => .error (.io "gone"), fun _ => none⟩
  store := fun _ => pure (.error (.io "gone"))
  now := pure (.ofLocal 0 0 0 0)
  freshId := pure "1"

def typeHeat : Http.Request :=
  ⟨"PUT", "/api/v1/movies/search/live",
    [("content-type", Text.Utf8.encode "application/json".toList)],
    Text.Utf8.encode (Json.object [("query", .text "heat ")]).render⟩

def askLive : Http.Request := .get "/api/v1/movies/search/live" []

def searchHeat : Http.Request := .get "/api/v1/movies/search?q=heat+" []

/-- Three movies found, by both ways. -/
theorem search_cuts_live_three :
    let settings := Settings.defaults
    let published := (crowd 3).answer settings "heat "
    typed? typeHeat = some "heat " ∧ AsksLive askLive ∧ asked? searchHeat = some ⟨"heat ", none⟩ ∧
      published.length = 3 ∧
      Tells ((crowd 3).response ((crowd 3).opened settings ()
        [.request searchHeat, .request typeHeat, .wait 200, .request askLive, .wait 200]) askLive)
        (snapshot ⟨"heat", published⟩) ∧
      Tells ((crowd 3).response ((crowd 3).opened settings () [.wait 5]) searchHeat)
        (Movie.listToJson published) := by
  intro settings published
  have hput : typed? typeHeat = some "heat " := by decide +kernel
  have hlive : AsksLive askLive := by decide +kernel
  have hget : asked? searchHeat = some ⟨"heat ", none⟩ := by decide +kernel
  have hlong : 2 ≤ (Text.trim "heat ".toList).length := by decide +kernel
  have hquiet : ∀ v ∈ [Visit.wait 200, .request askLive, .wait 200], v.text? = none := by
    decide +kernel
  obtain ⟨hpublished, hfound, -, hall, -⟩ :=
    search_cuts_live (crowd 3) settings () [.request searchHeat]
      [.wait 200, .request askLive, .wait 200] [.wait 5] hlong hput hquiet (by decide) hlive hget
  refine ⟨hput, hlive, hget, by decide +kernel, ?_, ?_⟩
  · exact (show String.ofList (Text.trim "heat ".toList) = "heat" by decide +kernel) ▸ hpublished
  · rwa [hall (by decide)] at hfound

/-- The settings allow one movie more than a search is answered with, and so many are
found: the live search publishes them all. -/
theorem live_exceeds_search :
    let settings := { Settings.defaults with searchLimit := maxLimit + 1 }
    ∃ found published : List Movie,
      Tells ((crowd 101).response ((crowd 101).opened settings () []) searchHeat)
        (Movie.listToJson found) ∧
      Tells ((crowd 101).response
        ((crowd 101).opened settings () [.request typeHeat, .wait 301]) askLive)
        (snapshot ⟨queryOf "heat ", published⟩) ∧
      found.length = maxLimit ∧ published.length = maxLimit + 1 := by
  intro settings
  have hput : typed? typeHeat = some "heat " := by decide +kernel
  have hlive : AsksLive askLive := by decide +kernel
  have hget : asked? searchHeat = some ⟨"heat ", none⟩ := by decide +kernel
  have hlong : 2 ≤ (Text.trim "heat ".toList).length := by decide +kernel
  have hquiet : ∀ v ∈ [Visit.wait 301], v.text? = none := by decide
  have hlength : ((crowd 101).answer settings "heat ").length = maxLimit + 1 := by decide +kernel
  have hfound := tells_search_after (crowd 101) settings () [] hget
  have hpublished := tells_live_after (crowd 101) settings () [] [.wait 301] hlong hput hquiet
    (by decide) hlive
  rw [Option.getD_none] at hfound
  refine ⟨_, (crowd 101).answer settings "heat ", hfound, hpublished, ?_, hlength⟩
  change (((crowd 101).answer settings "heat ").take maxLimit).length = maxLimit
  rw [List.length_take, hlength]
  rfl

end Unchanging

end Matinee
