/-
# `Matinee.Proofs.Api.Steady` — what requests leave as it is

A request can do many things, but few of them to the service itself: it may be the one
that has the catalog read, it may have ratings read, and if it gives a text to the live
search, the live search takes it.  All other work is put together from steps that leave
settings and live search alone (`Steady`), so nothing has to be said of what it answers.

The catalog needs one assumption: files stay as they are and an address always answers
alike (`Unchanging`).  Then it makes no difference whether it has been read already
(`Fits`), and what a search finds depends on its query and its limit only
(`search_world`).
-/
import Matinee.Proofs.Api.Run
import Matinee.Proofs.Search.Limit

namespace Matinee

/-! ## A world that does not change -/

/-- What lies outside, if files stay as they are and an address always answers alike.  The
store, the clock and the fresh ids may do what they like, with a state of their own. -/
structure Unchanging (σ : Type) where
  file : String → Except Failure (List UInt8)
  exchange : Http.Exchange Id
  store : (c : Store.Call) → StateM σ (Except Failure c.Answer)
  now : StateM σ Instant
  freshId : StateM σ String

namespace Unchanging

variable {σ : Type} (o : Unchanging σ)

def world : World (StateM σ) where
  access := ⟨fun path => pure (o.file path),
    ⟨fun r => pure (o.exchange.send r), o.exchange.decoders⟩⟩
  store := o.store
  now := o.now
  freshId := o.freshId

/-- What the catalog is read from. -/
def catalogText (settings : Settings) : Except Failure (List Char) :=
  Id.run (Dataset.Access.readText ⟨o.file, o.exchange⟩ (.ofText settings.catalog))

def entries (settings : Settings) : Except Failure (List CatalogEntry) :=
  (o.catalogText settings).map Dataset.catalogOf

/-- What a look-up comes to. -/
def outcome (c : RemoteCatalog.Client) (title : String) : Search.Lookup :=
  match Id.run (c.ask o.exchange (.titled title)) with
  | .ok movies => .found movies
  | .error f => .failed f

/-- The movies that a query finds. -/
def found (settings : Settings) (query : String) (limit : Nat) : List Movie :=
  Search.decorated (settings.remoteCatalog.map o.outcome)
    (Search.candidates ((o.entries settings).toOption.getD []) query limit)

theorem readText_world (l : Dataset.Location) :
    o.world.access.readText l =
      pure (Id.run (Dataset.Access.readText ⟨o.file, o.exchange⟩ l)) := by
  cases l <;> rfl

theorem lookup_world (c : RemoteCatalog.Client) (title : String) :
    Service.lookup o.world c title = pure (o.outcome c title) := by
  have hask : c.ask o.world.access.exchange (.titled title) =
      pure (Id.run (c.ask o.exchange (.titled title))) := by
    unfold RemoteCatalog.Client.ask
    split <;> rfl
  rw [Service.lookup, hask, pure_bind, outcome]
  cases Id.run (c.ask o.exchange (.titled title)) <;> rfl

/-! ## Work that is steady -/

/-- The catalog that the service has, if any, is the one of the world. -/
def Fits (s : Service) : Prop := ∀ es, s.catalog = some es → o.entries s.settings = .ok es

/-- Between these two states, settings and live search have stayed as they were. -/
structure Same (s s' : Service) : Prop where
  settings : s'.settings = s.settings
  live : s'.live = s.live
  fits : o.Fits s'

/-- Some work leaves settings and live search as they are. -/
def Steady {α : Type} (x : StateT Service (StateM σ) α) : Prop :=
  ∀ s a, o.Fits s → o.Same s ((x.run s).run a).1.2

variable {o} {s s' s'' : Service} {α β : Type}

theorem Same.refl (h : o.Fits s) : o.Same s s := ⟨rfl, rfl, h⟩

theorem Same.trans (h : o.Same s s') (h' : o.Same s' s'') : o.Same s s'' :=
  ⟨h'.settings.trans h.settings, h'.live.trans h.live, h'.fits⟩

theorem steady_pure (a : α) : o.Steady (pure a) := fun _ _ h => .refl h

theorem steady_get : o.Steady get := fun _ _ h => .refl h

theorem steady_lift (x : StateM σ α) : o.Steady (StateT.lift x) := fun _ _ h => .refl h

theorem Steady.bind {x : StateT Service (StateM σ) α} {f : α → StateT Service (StateM σ) β}
    (hx : o.Steady x) (hf : ∀ a, o.Steady (f a)) : o.Steady (x >>= f) := fun s a h =>
  (hx s a h).trans (hf _ _ _ (hx s a h).fits)

/-! ## Reading the catalog -/

/-- The state in which the catalog has been asked for. -/
def afterReading (o : Unchanging σ) (s : Service) : Service :=
  { s with catalog := s.catalog.or (o.entries s.settings).toOption }

theorem Fits.same_afterReading (h : o.Fits s) : o.Same s (o.afterReading s) := by
  refine ⟨rfl, rfl, fun es hes => ?_⟩
  change o.entries s.settings = .ok es
  cases hcatalog : s.catalog with
  | some es' =>
      rw [afterReading, hcatalog, Option.some_or, Option.some_inj] at hes
      exact hes ▸ h es' hcatalog
  | none =>
      rw [afterReading, hcatalog, Option.none_or] at hes
      cases hentries : o.entries s.settings with
      | error f => simp [hentries, Except.toOption] at hes
      | ok es' =>
          rw [hentries] at hes
          exact congrArg Except.ok (Option.some_inj.mp hes)

theorem entries_world (h : o.Fits s) :
    (Service.entries o.world).run s =
      pure ((o.entries s.settings).toOption.getD [], o.afterReading s) := by
  have hload : (Catalog.load (o.world.access.readText (.ofText s.settings.catalog))).run s.catalog =
      pure ((o.entries s.settings).toOption.getD [],
        s.catalog.or (o.entries s.settings).toOption) := by
    cases hcatalog : s.catalog with
    | some es =>
        rw [h es hcatalog]
        rfl
    | none =>
        rw [readText_world]
        unfold Catalog.load Cache.getOrFill entries catalogText
        cases Id.run (Dataset.Access.readText ⟨o.file, o.exchange⟩ (.ofText s.settings.catalog)) <;>
          rfl
  change ((Catalog.load (o.world.access.readText (.ofText s.settings.catalog))).run s.catalog >>=
    fun found => pure (found.1, { s with catalog := found.2 })) = _
  rw [hload]
  rfl

theorem search_world (h : o.Fits s) (query : String) (limit : Nat) (a : σ) :
    ∃ s', o.Same s s' ∧ ((Service.search o.world query limit).run s).run a =
      ((o.found s.settings query limit, s'), a) := by
  have hask : (s.settings.remoteCatalog.map (Service.lookup o.world)).map
        (fun ask title => (StateT.lift (ask title) : StateT Service (StateM σ) Search.Lookup)) =
      (s.settings.remoteCatalog.map o.outcome).map fun answer title => pure (answer title) := by
    cases s.settings.remoteCatalog with
    | none => rfl
    | some c =>
        simp only [Option.map_some, lookup_world]
        rfl
  change ∃ s', o.Same s s' ∧ ((Search.search (Service.entries o.world)
    ((s.settings.remoteCatalog.map (Service.lookup o.world)).map
      fun ask title => StateT.lift (ask title)) query limit).run s).run a = _
  rw [hask, Search.search_of_answers]
  cases hs : Search.isSearchable query with
  | false =>
      refine ⟨s, .refl h, ?_⟩
      rw [found, Search.candidates_of_not_isSearchable _ hs]
      cases s.settings.remoteCatalog <;> rfl
  | true =>
      refine ⟨o.afterReading s, h.same_afterReading, ?_⟩
      rw [if_pos rfl, StateT.run_map, entries_world h]
      rfl

theorem steady_search (o : Unchanging σ) (query : String) (limit : Nat) :
    o.Steady (Service.search o.world query limit) := by
  intro s a h
  obtain ⟨s', hsame, hrun⟩ := search_world h query limit a
  rw [hrun]
  exact hsame

/-! ## The other work of the service -/

theorem steady_onStore (o : Unchanging σ) (action : WatchList → Store.Action α) :
    o.Steady (Service.onStore o.world action) :=
  steady_get.bind fun s => steady_lift ((action s.watchList).run.run o.world.store)

theorem steady_onRatings (o : Unchanging σ)
    (question : Rating.Sources (StateM σ) → StateT Rating.Ratings (StateM σ) α) :
    o.Steady (Service.onRatings o.world question) := fun _ _ h => ⟨rfl, rfl, h⟩

theorem steady_listing (o : Unchanging σ) (q : RemoteCatalog.Question) :
    o.Steady (Service.listing o.world q) := by
  refine steady_get.bind fun s => ?_
  split
  · exact steady_pure []
  · exact (steady_lift _).bind fun answer => steady_pure (answer.toOption.getD [])

theorem steady_recommend (o : Unchanging σ) (token : String) (count : Nat)
    (q : Recommender.Question) : o.Steady (Service.recommend o.world token count q) :=
  steady_get.bind fun s => steady_lift (s.recommender.ask o.world.access.exchange token count q)

/-! ## Handlers -/

section

open Api

theorem Steady.handler {x : Handler (StateM σ) α} {f : α → Handler (StateM σ) β}
    (hx : o.Steady x.run) (hf : ∀ a, o.Steady (f a).run) : o.Steady (x >>= f).run := by
  rw [ExceptT.run_bind]
  refine Steady.bind hx fun found => ?_
  cases found with
  | ok a => exact hf a
  | error refusal => exact steady_pure _

theorem Steady.lifted {x : StateT Service (StateM σ) α} (hx : o.Steady x) :
    o.Steady (ExceptT.lift x : Handler (StateM σ) α).run :=
  Steady.bind hx fun _ => steady_pure _

theorem steady_accept (o : Unchanging σ) (given : Except Rejection α) :
    o.Steady (accept given : Handler (StateM σ) α).run := by
  cases given with
  | ok a => exact steady_pure _
  | error r => exact steady_pure _

theorem steady_succeed (o : Unchanging σ) (given : Except Failure α) :
    o.Steady (succeed given : Handler (StateM σ) α).run := by
  cases given with
  | ok a => exact steady_pure _
  | error f => exact steady_pure _

theorem steady_saved (o : Unchanging σ) : o.Steady (saved o.world).run :=
  (steady_onStore o _).lifted.handler fun entries => steady_succeed o entries

theorem steady_save (o : Unchanging σ) (r : Http.Request) : o.Steady (save o.world r).run := by
  refine (steady_accept o _).handler fun movie => ?_
  split
  · exact steady_pure _
  · refine (steady_onStore o _).lifted.handler fun added => ?_
    refine (steady_succeed o added).handler fun added => ?_
    exact (steady_saved o).handler fun entries => steady_pure _

theorem steady_unsave (o : Unchanging σ) (segment : List Char) :
    o.Steady (unsave o.world segment).run := by
  refine (steady_accept o _).handler fun id => ?_
  refine (steady_onStore o _).lifted.handler fun removed => ?_
  refine (steady_succeed o removed).handler fun removed => ?_
  split
  · exact steady_pure _
  · exact steady_pure _

theorem steady_profile (o : Unchanging σ) : o.Steady (profile o.world).run := by
  refine (steady_lift _).lifted.handler fun now => ?_
  refine (steady_onStore o _).lifted.handler fun createdAt => ?_
  refine (steady_succeed o createdAt).handler fun createdAt => ?_
  exact (steady_saved o).handler fun entries => steady_pure _

theorem steady_rating (o : Unchanging σ) (segment : List Char) :
    o.Steady (rating o.world segment).run := by
  refine (steady_accept o _).handler fun external => ?_
  refine (steady_onRatings o _).lifted.handler fun found => ?_
  split
  · exact steady_pure _
  · exact steady_pure _

theorem steady_ratings (o : Unchanging σ) (r : Http.Request) :
    o.Steady (ratings o.world r).run := by
  refine (steady_accept o _).handler fun batch => ?_
  exact (steady_onRatings o _).lifted.handler fun found => steady_pure _

theorem steady_recommendHandler (o : Unchanging σ) (r : Http.Request) (params : Http.Params)
    (q : Recommender.Question) : o.Steady (recommend o.world r params q).run := by
  refine (steady_accept o _).handler fun count => ?_
  refine (steady_succeed o _).handler fun token => ?_
  exact (steady_recommend o token count q).lifted.handler fun movies => steady_pure _

theorem steady_listingHandler (o : Unchanging σ) (q : RemoteCatalog.Question) :
    o.Steady (listing o.world q).run :=
  (steady_listing o q).lifted.handler fun _ => steady_pure _

theorem steady_searchHandler (o : Unchanging σ) (params : Http.Params) :
    o.Steady (search o.world params).run := by
  refine (steady_accept o _).handler fun q => ?_
  refine steady_get.lifted.handler fun s => ?_
  exact (steady_search o _ _).lifted.handler fun movies => steady_pure _

theorem steady_work {r : Http.Request} {params : Http.Params} {resource : Resource}
    {method : String} {work : Handler (StateM σ) Response}
    (hwork : work? o.world r params resource method = some work)
    (hlive : ¬ (resource = .liveSearch ∧ method = "PUT")) : o.Steady work.run := by
  unfold work? at hwork
  split at hwork
  all_goals cases hwork
  · exact steady_pure _
  · exact steady_searchHandler o params
  · exact steady_get.lifted.handler fun s => steady_pure _
  · exact absurd ⟨rfl, rfl⟩ hlive
  · exact steady_listingHandler o _
  · exact (steady_accept o _).handler fun page => steady_listingHandler o _
  · exact (steady_accept o _).handler fun page => steady_listingHandler o _
  · exact steady_ratings o r
  · exact steady_rating o _
  · exact (steady_saved o).handler fun entries => steady_pure _
  · exact steady_save o r
  · exact steady_unsave o _
  · exact steady_profile o
  · exact steady_recommendHandler o r params _
  · exact steady_recommendHandler o r params _

/-! ## Requests -/

/-- The text that a request gives to the live search. -/
def typed? (r : Http.Request) : Option String :=
  if r.method = "PUT" ∧ Resource.ofPath? (splitTarget r.target).1 = some .liveSearch then
    (readBody liveQuery r).toOption
  else none

/-- All that a request can do to settings, live search and catalog. -/
structure Heard (o : Unchanging σ) (r : Http.Request) (s s' : Service) : Prop where
  settings : s'.settings = s.settings
  live : s'.live = ((typed? r).map (s.live.schedule s.settings.pause)).getD s.live
  fits : o.Fits s'

theorem Same.heard {r : Http.Request} (h : o.Same s s') (hr : typed? r = none) :
    o.Heard r s s' := ⟨h.settings, by rw [hr]; exact h.live, h.fits⟩

theorem heard_respond (h : o.Fits s) (r : Http.Request) (a : σ) :
    o.Heard r s (((respond o.world r).run s).run a).1.2 := by
  by_cases hlive : r.method = "PUT" ∧ Resource.ofPath? (splitTarget r.target).1 = some .liveSearch
  · have htyped : typed? r = (readBody liveQuery r).toOption := if_pos hlive
    have hhead : r.method ≠ "HEAD" := by rw [hlive.1]; decide
    have hwork : work? o.world r (Http.Form.decode (splitTarget r.target).2) .liveSearch r.method =
        some (takeLiveQuery r) := by rw [hlive.1]; rfl
    rw [respond_of_work o.world hhead hlive.2 hwork]
    cases hbody : readBody liveQuery r with
    | ok text =>
        have hstate : (((ending <$> (takeLiveQuery r : Handler (StateM σ) Response).run).run s).run
            a).1.2 = { s with live := s.live.schedule s.settings.pause text } := by
          rw [takeLiveQuery, hbody]
          rfl
        rw [hstate]
        exact ⟨rfl, by rw [htyped, hbody]; rfl, fun es hes => h es hes⟩
    | error rejection =>
        have hstate : (((ending <$> (takeLiveQuery r : Handler (StateM σ) Response).run).run s).run
            a).1.2 = s := by
          rw [takeLiveQuery, hbody]
          rfl
        rw [hstate]
        exact ⟨rfl, by rw [htyped, hbody]; rfl, h⟩
  · refine Same.heard ?_ (if_neg hlive)
    unfold respond
    simp only
    split
    · exact .refl h
    · rename_i resource hresource
      split
      · exact .refl h
      · rename_i work hwork
        refine (Steady.bind (steady_work hwork ?_) fun answer => steady_pure _) s a h
        rintro ⟨rfl, hmethod⟩
        split at hmethod
        · exact absurd hmethod (by decide)
        · exact hlive ⟨hmethod, hresource⟩

theorem heard_handle (h : o.Fits s) (r : Http.Request) (a : σ) :
    o.Heard r s (((handle o.world r).run s).run a).1.2 := by
  by_cases hr : r.method = "OPTIONS"
  · have hput : typed? r = none := if_neg fun hput => absurd (hr.symm.trans hput.1) (by decide)
    rw [handle, if_pos hr]
    exact (Same.refl h).heard hput
  · have hstate : (((handle o.world r).run s).run a).1.2 =
        (((respond o.world r).run s).run ((idFor o.world r).run a).2).1.2 := by
      rw [handle_eq o.world hr]
      rfl
    rw [hstate]
    exact heard_respond h r ((idFor o.world r).run a).2

/-! ## Answers -/

/-- The response is a good one, with a value in its body. -/
structure Tells (response : Response) (value : Json) : Prop where
  status : response.status = 200
  body : response.body = .json value

/-- The search that a request asks for. -/
def asked? (r : Http.Request) : Option SearchQuery :=
  if r.method = "GET" ∧ Resource.ofPath? (splitTarget r.target).1 = some .search then
    (SearchQuery.read (Http.Form.decode (splitTarget r.target).2)).toOption
  else none

/-- A request asks for what the live search has published. -/
def AsksLive (r : Http.Request) : Prop :=
  r.method = "GET" ∧ Resource.ofPath? (splitTarget r.target).1 = some .liveSearch

instance (r : Http.Request) : Decidable (AsksLive r) := inferInstanceAs (Decidable (_ ∧ _))

theorem tells_handle {r : Http.Request} {resource : Resource} {work : Handler (StateM σ) Response}
    {value : Json} (hmethod : r.method = "GET")
    (hpath : Resource.ofPath? (splitTarget r.target).1 = some resource)
    (hwork : work? o.world r (Http.Form.decode (splitTarget r.target).2) resource "GET" = some work)
    (hvalue : ∀ a, ((work.run.run s).run a).1.1 = .ok (.ofJson 200 value)) (a : σ) :
    Tells (((handle o.world r).run s).run a).1.1 value := by
  have hresponse : (((handle o.world r).run s).run a).1.1 =
      { Response.ofJson 200 value with requestId := some ((idFor o.world r).run a).1 } := by
    rw [handle_of_work o.world hmethod hpath hwork]
    change { ending ((work.run.run s).run ((idFor o.world r).run a).2).1.1 with
      requestId := some ((idFor o.world r).run a).1 } = _
    rw [hvalue]
    rfl
  exact ⟨congrArg Response.status hresponse, congrArg Response.body hresponse⟩

theorem tells_search (h : o.Fits s) {r : Http.Request} {q : SearchQuery} (hr : asked? r = some q)
    (a : σ) :
    Tells (((handle o.world r).run s).run a).1.1 (Movie.listToJson
      (o.found s.settings q.text (min (q.limit.getD s.settings.searchLimit) maxLimit))) := by
  unfold asked? at hr
  split at hr
  · rename_i hget
    obtain ⟨hmethod, hpath⟩ := hget
    refine tells_handle hmethod hpath rfl (fun a => ?_) a
    cases hread : SearchQuery.read (Http.Form.decode (splitTarget r.target).2) with
    | error rejection => simp [hread, Except.toOption] at hr
    | ok q' =>
        obtain rfl : q' = q := by simpa [hread, Except.toOption] using hr
        obtain ⟨s', -, hrun⟩ := search_world h q'.text
          (min (q'.limit.getD s.settings.searchLimit) maxLimit) a
        rw [search, hread]
        exact congrArg (fun x : (List Movie × Service) × σ =>
          (Except.ok (movies 200 x.1.1) : Except Refusal Response)) hrun
  · cases hr

theorem tells_live {r : Http.Request} (hr : AsksLive r) (s : Service) (a : σ) :
    Tells (((handle o.world r).run s).run a).1.1 (snapshot s.live.live.current) :=
  tells_handle hr.1 hr.2 rfl (fun _ => rfl) a

end

end Unchanging
end Matinee
