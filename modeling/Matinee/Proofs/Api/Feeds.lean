/-
# `Matinee.Proofs.Api.Feeds` — the lists of other services, as they are answered

Five resources are lists that another service sends.  A request for one of them whose form
is right (`Asks`) sends one request on, and from there on nothing can go wrong any more:
what comes back, and be it nothing at all, is turned into the movies to be shown by one
function (`Feed.shown`), and those are answered.  What this function makes of an answer is
the matter of `Matinee.Proofs.Upstream.Feed`.
-/
import Matinee.Proofs.Api.Run
import Matinee.Proofs.Text.Blank
import Matinee.Proofs.Upstream.Feed

namespace Matinee.Api

/-! ## Requests of good form -/

/-- The request is to get a resource. -/
structure Gets (r : Http.Request) (resource : Resource) : Prop where
  method : r.method = "GET"
  path : Resource.ofPath? (splitTarget r.target).1 = some resource

/-- The parameters of a request. -/
def given (r : Http.Request) : Http.Params := Http.Form.decode (splitTarget r.target).2

/-- A parameter is a number up to `max`, given once, or has its default for lack of it. -/
inductive Counts (params : Http.Params) (name : String) (max default : Nat) : Nat → Prop where
  | absent (h : ∀ p ∈ params, p.1 ≠ name) : Counts params name max default default
  | once {before behind : Http.Params} {text : String} {n : Nat}
      (hparams : params = before ++ (name, text) :: behind)
      (hbefore : ∀ p ∈ before, p.1 ≠ name) (hbehind : ∀ p ∈ behind, p.1 ≠ name)
      (htext : Number.readWhole max text.toList = .ok n) : Counts params name max default n

/-- A request carries a bearer token that is not blank. -/
inductive Bears (r : Http.Request) : String → Prop where
  | mk {value : List UInt8} {text : List Char} (hheader : r.header? "authorization" = some value)
      (hvalue : Http.visibleText? value = some ("Bearer ".toList ++ text))
      (htext : Text.isAllBlank text = false) : Bears r (String.ofList (Text.trim text))

/-- A request of good form for a list of another service: which list it is, and the request
that is sent for it. -/
inductive Asks (s : Settings) (r : Http.Request) : Feed → Http.Request → Prop where
  | trending {c : RemoteCatalog.Client} (hget : Gets r .trending)
      (hkey : s.remoteCatalog = some c) :
      Asks s r (.catalog c.images) (c.request .trending)
  | topRated {c : RemoteCatalog.Client} {n : Nat} (hget : Gets r .topRated)
      (hkey : s.remoteCatalog = some c) (hpage : Counts (given r) "page" (2 ^ 32 - 1) 1 n) :
      Asks s r (.catalog c.images) (c.request (.topRated (UInt32.ofNat n)))
  | popular {c : RemoteCatalog.Client} {n : Nat} (hget : Gets r .popular)
      (hkey : s.remoteCatalog = some c) (hpage : Counts (given r) "page" (2 ^ 32 - 1) 1 n) :
      Asks s r (.catalog c.images) (c.request (.popular (UInt32.ofNat n)))
  | recommendations {token : String} {n : Nat} (hget : Gets r .recommendations)
      (htoken : Bears r token) (hcount : Counts (given r) "top_n" (2 ^ 64 - 1) defaultCount n) :
      Asks s r (.recommended .personal)
        ((Recommender.ofAddress s.recommender).request token (min (max n 1) maxCount) .personal)
  | popularRecommendations {token : String} {n : Nat} (hget : Gets r .popularRecommendations)
      (htoken : Bears r token) (hcount : Counts (given r) "top_n" (2 ^ 64 - 1) defaultCount n) :
      Asks s r (.recommended .popular)
        ((Recommender.ofAddress s.recommender).request token (min (max n 1) maxCount) .popular)

theorem filter_eq_nil {params : Http.Params} {name : String} (h : ∀ p ∈ params, p.1 ≠ name) :
    params.filter (·.1 == name) = [] := by
  rw [List.filter_eq_nil_iff]
  intro p hp
  exact fun heq => h p hp (beq_iff_eq.mp heq)

theorem filter_once {before behind : Http.Params} {name text : String}
    (hbefore : ∀ p ∈ before, p.1 ≠ name) (hbehind : ∀ p ∈ behind, p.1 ≠ name) :
    (before ++ (name, text) :: behind).filter (·.1 == name) = [(name, text)] := by
  have hname : ((name, text).1 == name) = true := beq_self_eq_true name
  rw [List.filter_append, filter_eq_nil hbefore, List.filter_cons, if_pos hname,
    filter_eq_nil hbehind, List.nil_append]

theorem Counts.wholeParam? {params : Http.Params} {name : String} {max default n : Nat}
    (h : Counts params name max default n) :
    ∃ found, Api.wholeParam? params name max = .ok found ∧ found.getD default = n := by
  cases h with
  | absent h =>
      refine ⟨none, ?_, rfl⟩
      rw [Api.wholeParam?, param?, filter_eq_nil h]
      rfl
  | once hparams hbefore hbehind htext =>
      refine ⟨some n, ?_, rfl⟩
      rw [Api.wholeParam?, param?, hparams, filter_once hbefore hbehind]
      simp only [bind, Except.bind, htext]
      rfl

theorem Counts.readPage {params : Http.Params} {n : Nat}
    (h : Counts params "page" (2 ^ 32 - 1) 1 n) : Api.readPage params = .ok (UInt32.ofNat n) := by
  obtain ⟨found, hfound, hn⟩ := h.wholeParam?
  rw [Api.readPage, hfound, ← hn]
  rfl

theorem Counts.readCount {params : Http.Params} {n : Nat}
    (h : Counts params "top_n" (2 ^ 64 - 1) defaultCount n) :
    Api.readCount params = .ok (min (max n 1) maxCount) := by
  obtain ⟨found, hfound, hn⟩ := h.wholeParam?
  rw [Api.readCount, hfound, ← hn]
  rfl

theorem Bears.bearerToken {r : Http.Request} {token : String} (h : Bears r token) :
    Api.bearerToken r = .ok token := by
  cases h with
  | @mk value text hheader hvalue htext =>
      have hne : Text.trim text ≠ [] := by
        rw [Ne, Text.trim_eq_nil_iff, htext]
        decide
      obtain ⟨c, rest, htrim⟩ := List.exists_cons_of_ne_nil hne
      have hdrop := Text.dropFront?_eq_some_iff.mpr (rfl : "Bearer ".toList ++ text = _)
      simp only [Api.bearerToken, hheader, hvalue, Option.bind_eq_bind, Option.bind_some, hdrop,
        htrim, Option.pure_def]

/-! ## The work for them -/

section

variable {m : Type → Type} [Monad m] [LawfulMonad m] (w : World m)

theorem run_movies (x : StateT Service m (List Movie)) (s : Service) :
    (do return movies 200 (← x) : Handler m Response).run.run s =
      (fun found => (.ok (movies 200 found.1), found.2)) <$> x.run s := by
  simp only [ExceptT.run_bind, ExceptT.run_monadLift, StateT.run_bind, ExceptT.run_pure,
    StateT.run_pure, map_eq_pure_bind, bind_assoc, pure_bind]
  rfl

theorem run_listing {s : Service} {c : RemoteCatalog.Client}
    (hkey : s.settings.remoteCatalog = some c) {q : RemoteCatalog.Question}
    (hq : q.refusal = none) :
    (listing w q).run.run s =
      (fun answer =>
        (.ok (movies 200 ((Feed.catalog c.images).shown w.access.exchange.decoders answer)), s)) <$>
          w.access.exchange.send (c.request q) := by
  have hlisting : (Service.listing w q).run s = (fun ms => (ms, s)) <$>
      (fun found => found.toOption.getD []) <$> c.ask w.access.exchange q := by
    simp [Service.listing, hkey]
  rw [listing, run_movies, hlisting, Feed.ask_catalog _ c hq, Functor.map_map, Functor.map_map]

theorem run_recommend {r : Http.Request} {params : Http.Params} {count : Nat} {token : String}
    (hcount : readCount params = .ok count) (htoken : bearerToken r = .ok token)
    (q : Recommender.Question) (s : Service) :
    (recommend w r params q).run.run s =
      (fun answer =>
        (.ok (movies 200 ((Feed.recommended q).shown w.access.exchange.decoders answer)), s)) <$>
          w.access.exchange.send (s.recommender.request token count q) := by
  have hrecommend : (Service.recommend w token count q).run s =
      (fun ms => (ms, s)) <$> s.recommender.ask w.access.exchange token count q := by
    simp [Service.recommend]
  rw [recommend, hcount, htoken]
  simp only [accept, succeed, pure_bind]
  rw [run_movies, hrecommend, Feed.ask_recommended, Functor.map_map, Functor.map_map]

theorem handle_of_shown {s : Service} {r : Http.Request} {resource : Resource}
    (hget : Gets r resource) {work : Handler m Response} {f : Feed} {sent : Http.Request}
    (hwork : work? w r (given r) resource "GET" = some work)
    (hrun : work.run.run s =
      (fun answer => (.ok (movies 200 (f.shown w.access.exchange.decoders answer)), s)) <$>
        w.access.exchange.send sent) :
    (handle w r).run s = do
      let id ← idFor w r
      let answer ← w.access.exchange.send sent
      return (⟨200, .json (Movie.listToJson (f.shown w.access.exchange.decoders answer)), some id⟩,
        s) := by
  rw [handle_of_work w hget.method hget.path hwork s, hrun]
  simp only [map_eq_pure_bind, bind_assoc, pure_bind]
  rfl

/-- A request of good form is answered with what is to be shown of the answer to the
request that it leads to, and has no other effect. -/
theorem handle_of_asks {s : Service} {r : Http.Request} {f : Feed} {sent : Http.Request}
    (h : Asks s.settings r f sent) :
    (handle w r).run s = do
      let id ← idFor w r
      let answer ← w.access.exchange.send sent
      return (⟨200, .json (Movie.listToJson (f.shown w.access.exchange.decoders answer)), some id⟩,
        s) := by
  cases h with
  | trending hget hkey => exact handle_of_shown w hget rfl (run_listing w hkey rfl)
  | topRated hget hkey hpage =>
      refine handle_of_shown w hget rfl ?_
      rw [hpage.readPage]
      simp only [accept, pure_bind]
      exact run_listing w hkey rfl
  | popular hget hkey hpage =>
      refine handle_of_shown w hget rfl ?_
      rw [hpage.readPage]
      simp only [accept, pure_bind]
      exact run_listing w hkey rfl
  | recommendations hget htoken hcount =>
      exact handle_of_shown w hget rfl
        (run_recommend w hcount.readCount htoken.bearerToken .personal s)
  | popularRecommendations hget htoken hcount =>
      exact handle_of_shown w hget rfl
        (run_recommend w hcount.readCount htoken.bearerToken .popular s)

/-- **Other services are shown whole or not at all.**  Whatever comes back from another
service, a request of good form for one of its lists is answered 200 with a list, and
nothing else is done for it than to ask that service once.  If a page has come back, the
list has one movie for each item of the page, in the same order, with the id and the title
that stand there; otherwise it is empty, and so it is if a single item cannot be read.
Every list of ids and titles makes a page. -/
theorem lists_whole_or_empty {s : Service} {r : Http.Request} {f : Feed} {sent : Http.Request}
    (h : Asks s.settings r f sent) :
    let others := w.access.exchange.decoders
    ((handle w r).run s = do
      let id ← idFor w r
      let answer ← w.access.exchange.send sent
      return (⟨200, .json (Movie.listToJson (f.shown others answer)), some id⟩, s)) ∧
    (∀ answer movies, f.Shows others answer movies ↔ f.shown others answer = movies) ∧
    (∀ (reply : Http.Reply) (items : List Json.Tree) (closed : Bool),
      f.list? (reply.document others).root = some (.array items closed) →
      (∃ item ∈ items, ∀ movie, f.item item ≠ .ok movie) → f.shown others (.ok reply) = []) ∧
    ∀ (reply : Http.Reply) (listed : List (UInt64 × String)),
      200 ≤ reply.status ∧ reply.status < 300 → reply.text others = .ok (f.written listed).render →
      (f.shown others (.ok reply)).map (fun m => (m.id, m.title)) = listed := by
  intro others
  refine ⟨handle_of_asks w h, fun answer movies => Feed.shows_iff, ?_, ?_⟩
  · rintro reply items closed hlist ⟨item, hitem, hbad⟩
    exact Feed.shown_eq_nil hlist hitem hbad
  · intro reply listed hstatus htext
    exact f.shown_written hstatus htext

end

/-- Nothing but another service, which gives one answer to everything. -/
def upstream (answer : Except Failure Http.Reply) : World Id where
  access := ⟨fun _ => .error (.io "gone"), ⟨fun _ => answer, fun _ => none⟩⟩
  store := fun _ => .error (.io "gone")
  now := .ofLocal 736330 43200 ⟨500000, by decide⟩ 0
  freshId := "1"

/-- A reply of status 200 with this text. -/
def pageOf (text : String) : Http.Reply := ⟨200, none, Text.Utf8.encode text.toList, false⟩

def askPopular : Http.Request := .get "/api/v1/movies/popular?page=2" []

/-- Two movies are shown; if the title of the second is missing, none is. -/
theorem lists_whole_or_empty_popular :
    let service := Service.start { Settings.defaults with remoteKey := some "k" }
    let alien := "\x7b\"id\":348,\"title\":\"Alien\"\x7d"
    let two := pageOf
      ("\x7b\"results\":[" ++ alien ++ ",\x7b\"id\":949,\"title\":\"Heat\"\x7d]\x7d")
    let spoilt := pageOf ("\x7b\"results\":[" ++ alien ++ ",\x7b\"id\":949\x7d]\x7d")
    (∃ movies : List Movie,
      (handle (upstream (.ok two)) askPopular).run service =
        (⟨200, .json (Movie.listToJson movies), some "1"⟩, service) ∧
      movies.map (fun m => (m.id, m.title)) = [(348, "Alien"), (949, "Heat")]) ∧
    (handle (upstream (.ok spoilt)) askPopular).run service =
      (⟨200, .json (Movie.listToJson []), some "1"⟩, service) := by
  intro service alien two spoilt
  have hpage : Counts (given askPopular) "page" (2 ^ 32 - 1) 1 2 :=
    .once (show given askPopular = [] ++ ("page", "2") :: [] by decide +kernel)
      (fun _ hp => absurd hp List.not_mem_nil) (fun _ hp => absurd hp List.not_mem_nil)
      (by decide +kernel)
  have hkey : service.settings.remoteCatalog =
      some ⟨"k", "https://api.themoviedb.org/3", "https://image.tmdb.org/t/p/w500", "es-ES"⟩ := by
    decide +kernel
  have hasks := Asks.popular ⟨rfl, by decide +kernel⟩ hkey hpage
  obtain ⟨htwo, -, -, hlisted⟩ := lists_whole_or_empty (upstream (.ok two)) hasks
  have hspoilt := (lists_whole_or_empty (upstream (.ok spoilt)) hasks).1
  have htext : two.text (fun _ => none) =
      .ok (((Feed.catalog "https://image.tmdb.org/t/p/w500").written
        [(348, "Alien"), (949, "Heat")]).render) :=
    congrArg Except.ok (by decide +kernel)
  have hnone : (Feed.catalog "https://image.tmdb.org/t/p/w500").shown (fun _ => none)
      (.ok spoilt) = [] :=
    List.isEmpty_iff.mp (by decide +kernel)
  refine ⟨⟨_, htwo, hlisted two _ ⟨by decide, by decide⟩ htext⟩, hspoilt.trans ?_⟩
  exact congrArg (fun movies => (Response.mk 200 (.json (Movie.listToJson movies)) (some "1"),
    service)) hnone

end Matinee.Api
