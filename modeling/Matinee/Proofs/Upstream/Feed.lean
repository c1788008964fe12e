/-
# `Matinee.Proofs.Upstream.Feed` — lists that other services send

The remote catalog and the recommender send pages of movies, and each has a client of its
own.  What the two clients do with an answer comes to the same (`ask_catalog`,
`ask_recommended`): the movies of a page that is good from its status to its last item, or
nothing (`shown`).

That there is nothing in between is no matter of the clients.  A page has been read only if
its list has, and a list only if each of its items has (`exists_items_of_page`); so the
movies go with the items one by one, or there are none.  Nor is it a matter of pages that
no service could send: any ids and titles make one (`exists_page`).
-/
import Matinee.Proofs.Json.Written
import Matinee.Recommender
import Matinee.RemoteCatalog.Client

namespace Matinee

open Json (Decoder Tree Decides Takes takes_one exists_list exists_uint64 exists_text
  exists_of_mem_forall₂ ok_of_whole whole_map)

/-- The document in the body of a reply, as far as the body has come. -/
def Http.Reply.document (others : Http.Charset.Decoders) (r : Http.Reply) : Json.Document :=
  .ofText (String.ofList (Charset.textOf others (r.contentType.bind MediaType.read?) r.body))

/-- A list that another service sends: one of the remote catalog, whose posters lie behind
an address, or one of the recommender. -/
inductive Feed where
  | catalog (images : String)
  | recommended (q : Recommender.Question)

namespace Feed

/-- Reads an item. -/
def item : Feed → Decoder Movie
  | .catalog images => fun t => (·.toMovie images) <$> RemoteCatalog.Entry.decode t
  | .recommended q => fun t => (·.toMovie (q = .personal)) <$> ScoredMovie.decode t

/-- Reads a page. -/
def page : Feed → Decoder (List Movie)
  | .catalog images => fun t => (·.movies images) <$> RemoteCatalog.Page.decode t
  | .recommended q => fun t =>
    (·.map (·.toMovie (q = .personal))) <$> Recommender.decodeReply q t

/-- The name of the list in a page. -/
def listName : Feed → String
  | .catalog _ => "results"
  | .recommended q => q.member

/-- The name of the id in an item. -/
def idName : Feed → String
  | .catalog _ => "id"
  | .recommended _ => "movieId"

/-- The names of the fields of a page, and of an item. -/
def pageNames : Feed → List String
  | .catalog _ => ["page", "results", "total_results"]
  | .recommended q => [q.member]

def itemNames : Feed → List String
  | .catalog _ =>
    ["id", "title", "overview", "poster_path", "release_date", "vote_average", "genre_ids"]
  | .recommended _ => ["movieId", "title", "genres", "rating", "score"]

/-- The value that stands in a page for its list. -/
def list? (f : Feed) : Tree → Option Tree := Tree.field? f.pageNames f.listName

/-- The values that stand in an item for the id and for the title of the movie. -/
def id? (f : Feed) : Tree → Option Tree := Tree.field? f.itemNames f.idName

def title? (f : Feed) : Tree → Option Tree := Tree.field? f.itemNames "title"

/-- The movie has been read from the item, and has the id and the title that stand there. -/
structure About (f : Feed) (item : Tree) (movie : Movie) : Prop where
  read : f.item item = .ok movie
  id : f.id? item = some (.scalar (.number (some (.whole movie.id.toNat))))
  title : f.title? item = some (.scalar (.text (some movie.title)))

/-- The reply has a good status, its body came whole, and the body is a page with nothing
behind it. -/
structure Brings (f : Feed) (others : Http.Charset.Decoders) (reply : Http.Reply) : Prop where
  success : 200 ≤ reply.status ∧ reply.status < 300
  whole : reply.cut = false
  page : ∃ movies, Decoder.whole f.page (reply.document others) = .ok movies

/-- What is to be shown of an answer. -/
inductive Shows (f : Feed) (others : Http.Charset.Decoders) :
    Except Failure Http.Reply → List Movie → Prop where
  /-- Of a page one movie for each item of its list, in their order. -/
  | page {reply : Http.Reply} {items : List Tree} {movies : List Movie} (h : f.Brings others reply)
      (hlist : f.list? (reply.document others).root = some (.array items true))
      (hmovies : List.Forall₂ f.About items movies) : Shows f others (.ok reply) movies
  /-- Without a page nothing. -/
  | nothing {answer : Except Failure Http.Reply}
      (h : ∀ reply, answer = .ok reply → ¬ f.Brings others reply) : Shows f others answer []

/-- What is shown of an answer. -/
def shown (f : Feed) (others : Http.Charset.Decoders) : Except Failure Http.Reply → List Movie
  | .ok reply =>
    if reply.isSuccess && !reply.cut then
      (Decoder.whole f.page (reply.document others)).toOption.getD []
    else []
  | .error _ => []

/-- A page that lists movies by id and title, and says no more of them. -/
def written (f : Feed) (listed : List (UInt64 × String)) : Json :=
  .object [(f.listName, .array (listed.map fun m =>
    .object [(f.idName, .whole m.1.toNat), ("title", .text m.2)]))]

/-! ## The fields of an item -/

theorem decides_entry_id : Decides RemoteCatalog.Entry.fields "id" Decoder.uint64
    RemoteCatalog.Entry.Draft.id := by
  refine .here ?_ fun _ _ => rfl
  iterate 6 refine .there ?_ (by decide) fun _ _ => rfl
  exact .nil

theorem decides_entry_title : Decides RemoteCatalog.Entry.fields "title" Decoder.text
    RemoteCatalog.Entry.Draft.title := by
  refine .there ?_ (by decide) fun _ _ => rfl
  refine .here ?_ fun _ _ => rfl
  iterate 5 refine .there ?_ (by decide) fun _ _ => rfl
  exact .nil

theorem decides_scored_id : Decides ScoredMovie.fields "movieId" Decoder.uint64
    ScoredMovie.Draft.id := by
  refine .here ?_ fun _ _ => rfl
  iterate 4 refine .there ?_ (by decide) fun _ _ => rfl
  exact .nil

theorem decides_scored_title : Decides ScoredMovie.fields "title" Decoder.text
    ScoredMovie.Draft.title := by
  refine .there ?_ (by decide) fun _ _ => rfl
  refine .here ?_ fun _ _ => rfl
  iterate 3 refine .there ?_ (by decide) fun _ _ => rfl
  exact .nil

theorem decides_results : Decides RemoteCatalog.Page.fields "results"
    (Decoder.list RemoteCatalog.Entry.decode) RemoteCatalog.Page.Draft.entries := by
  refine .there ?_ (by decide) fun _ _ => rfl
  refine .here ?_ fun _ _ => rfl
  refine .there ?_ (by decide) fun _ _ => rfl
  exact .nil

theorem parts_of_entry {draft : RemoteCatalog.Entry.Draft} {e : RemoteCatalog.Entry}
    (h : draft.finish = some e) : draft.id = some e.id ∧ draft.title = some e.title := by
  obtain ⟨id, hid, h⟩ := Option.bind_eq_some_iff.mp h
  obtain ⟨title, htitle, h⟩ := Option.bind_eq_some_iff.mp h
  injection h with h
  exact h ▸ ⟨hid, htitle⟩

theorem parts_of_scored {draft : ScoredMovie.Draft} {s : ScoredMovie}
    (h : draft.finish = some s) : draft.id = some s.id ∧ draft.title = some s.title := by
  obtain ⟨id, hid, h⟩ := Option.bind_eq_some_iff.mp h
  obtain ⟨title, htitle, h⟩ := Option.bind_eq_some_iff.mp h
  injection h with h
  exact h ▸ ⟨hid, htitle⟩

theorem parts_of_page {draft : RemoteCatalog.Page.Draft} {p : RemoteCatalog.Page}
    (h : draft.finish = some p) : draft.entries = some p.entries := by
  obtain ⟨entries, hentries, h⟩ := Option.bind_eq_some_iff.mp h
  injection h with h
  exact h ▸ hentries

theorem map_ok {x : Except ε α} {g : α → β} {b : β} (h : g <$> x = .ok b) :
    ∃ a, x = .ok a ∧ g a = b := by
  cases x with
  | error e => cases h
  | ok a => exact ⟨a, rfl, Except.ok.inj h⟩

theorem about_of_item {f : Feed} {t : Tree} {movie : Movie} (h : f.item t = .ok movie) :
    f.About t movie := by
  cases f with
  | catalog images =>
      obtain ⟨e, he, rfl⟩ := map_ok h
      have hid := decides_entry_id.number_of_record (by decide) (by decide) rfl
        (fun _ _ hdraft => (parts_of_entry hdraft).1) he
      have htitle := decides_entry_title.text_of_record (by decide) (by decide) rfl
        (fun _ _ hdraft => (parts_of_entry hdraft).2) he
      exact ⟨h, hid, htitle⟩
  | recommended q =>
      obtain ⟨s, hs, rfl⟩ := map_ok h
      have hid := decides_scored_id.number_of_record (by decide) (by decide) rfl
        (fun _ _ hdraft => (parts_of_scored hdraft).1) hs
      have htitle := decides_scored_title.text_of_record (by decide) (by decide) rfl
        (fun _ _ hdraft => (parts_of_scored hdraft).2) hs
      exact ⟨h, hid, htitle⟩

/-! ## The list of a page -/

theorem forall₂_map_of_list {d : Decoder α} {g : α → β} {t : Tree} {xs : List α}
    (h : Decoder.list d t = .ok xs) :
    ∃ items, t = .array items true ∧
      List.Forall₂ (fun item y => (g <$> d item : Except Json.Fault β) = .ok y) items
        (xs.map g) := by
  obtain ⟨items, ht, hitems⟩ := Json.exists_items_of_list h
  refine ⟨items, ht, List.forall₂_map_right_iff.mpr (hitems.imp fun item x hx => ?_)⟩
  rw [hx]
  rfl

/-- A page has been read only if each item of its list has. -/
theorem exists_items_of_page {f : Feed} {t : Tree} {movies : List Movie}
    (h : f.page t = .ok movies) :
    ∃ items, f.list? t = some (.array items true) ∧ List.Forall₂ f.About items movies := by
  obtain ⟨items, hlist, hitems⟩ : ∃ items, f.list? t = some (.array items true) ∧
      List.Forall₂ (fun item movie => f.item item = .ok movie) items movies := by
    cases f with
    | catalog images =>
        obtain ⟨page, hpage, rfl⟩ := map_ok h
        obtain ⟨v, hv, hlist⟩ := decides_results.record (by decide) (by decide) rfl
          (fun _ _ hdraft => parts_of_page hdraft) hpage
        obtain ⟨items, rfl, hitems⟩ := forall₂_map_of_list hlist
        exact ⟨items, hv, hitems⟩
    | recommended q =>
        obtain ⟨scored, hscored, rfl⟩ := map_ok h
        have hdecides : Decides [⟨q.member, true, fun (_ : Option (List ScoredMovie)) t => do
            return some (← Decoder.list ScoredMovie.decode t)⟩] q.member
            (Decoder.list ScoredMovie.decode) id :=
          .here .nil fun _ _ => rfl
        obtain ⟨v, hv, hlist⟩ := hdecides.record List.mem_cons_self (List.nodup_singleton _) rfl
          (fun _ _ hdraft => hdraft) hscored
        obtain ⟨items, rfl, hitems⟩ := forall₂_map_of_list hlist
        exact ⟨items, hv, hitems⟩
  exact ⟨items, hlist, hitems.imp fun _ _ => about_of_item⟩

/-- One item that cannot be read is enough to spoil its page. -/
theorem page_ne_ok {f : Feed} {t item : Tree} {items : List Tree} {closed : Bool}
    (hlist : f.list? t = some (.array items closed)) (hitem : item ∈ items)
    (hbad : ∀ movie, f.item item ≠ .ok movie) (movies : List Movie) : f.page t ≠ .ok movies := by
  intro hpage
  obtain ⟨items', hlist', hitems⟩ := exists_items_of_page hpage
  obtain ⟨rfl, rfl⟩ : items = items' ∧ closed = true := by
    simpa only [Option.some.injEq, Tree.array.injEq] using hlist.symm.trans hlist'
  obtain ⟨movie, -, habout⟩ := exists_of_mem_forall₂ hitems.flip hitem
  exact hbad movie habout.read

/-! ## What is shown -/

variable {others : Http.Charset.Decoders}

theorem shown_of_good (f : Feed) {reply : Http.Reply}
    (hgood : (reply.isSuccess && !reply.cut) = true) :
    f.shown others (.ok reply) =
      (Decoder.whole f.page (reply.document others)).toOption.getD [] := if_pos hgood

theorem shown_of_not_good (f : Feed) {reply : Http.Reply}
    (hbad : (reply.isSuccess && !reply.cut) = false) : f.shown others (.ok reply) = [] :=
  if_neg (Bool.not_eq_true _ ▸ hbad)

/-- Whatever the answer is, what is shown of it is what is to be shown. -/
theorem shows_shown (f : Feed) (others : Http.Charset.Decoders)
    (answer : Except Failure Http.Reply) :
    f.Shows others answer (f.shown others answer) := by
  cases answer with
  | error failure =>
      refine .nothing fun reply h => ?_
      cases h
  | ok reply =>
      cases hgood : reply.isSuccess && !reply.cut with
      | false =>
          rw [shown_of_not_good f hgood]
          refine .nothing fun reply' h hbrings => ?_
          cases h
          simp [Http.Reply.isSuccess, hbrings.success, hbrings.whole] at hgood
      | true =>
          rw [shown_of_good f hgood]
          cases hpage : Decoder.whole f.page (reply.document others) with
          | ok movies =>
              obtain ⟨items, hlist, hitems⟩ := exists_items_of_page (ok_of_whole hpage)
              rw [Bool.and_eq_true, Bool.not_eq_true'] at hgood
              have hstatus : 200 ≤ reply.status ∧ reply.status < 300 := by
                simpa [Http.Reply.isSuccess] using hgood.1
              exact .page ⟨hstatus, hgood.2, movies, hpage⟩ hlist hitems
          | error fault =>
              refine .nothing fun reply' h hbrings => ?_
              cases h
              obtain ⟨movies, hmovies⟩ := hbrings.page
              rw [hpage] at hmovies
              cases hmovies

theorem Shows.unique {f : Feed} {answer : Except Failure Http.Reply} {movies movies' : List Movie}
    (h : f.Shows others answer movies) (h' : f.Shows others answer movies') : movies = movies' := by
  cases h with
  | page hbrings hlist hmovies =>
      cases h' with
      | page _ hlist' hmovies' =>
          have habout : Relator.RightUnique f.About := fun item movie movie' h h' =>
            Except.ok.inj (h.read.symm.trans h'.read)
          rw [hlist, Option.some.injEq, Tree.array.injEq] at hlist'
          exact habout.forall₂ hmovies (hlist'.1 ▸ hmovies')
      | nothing hnot => exact absurd hbrings (hnot _ rfl)
  | nothing hnot =>
      cases h' with
      | page hbrings => exact absurd hbrings (hnot _ rfl)
      | nothing => rfl

theorem shows_iff {f : Feed} {answer : Except Failure Http.Reply} {movies : List Movie} :
    f.Shows others answer movies ↔ f.shown others answer = movies :=
  ⟨fun h => (f.shows_shown others answer).unique h, fun h => h ▸ f.shows_shown others answer⟩

theorem shown_eq_nil {f : Feed} {reply : Http.Reply} {item : Tree} {items : List Tree}
    {closed : Bool} (hlist : f.list? (reply.document others).root = some (.array items closed))
    (hitem : item ∈ items) (hbad : ∀ movie, f.item item ≠ .ok movie) :
    f.shown others (.ok reply) = [] := by
  refine shows_iff.mp (.nothing fun reply' h hbrings => ?_)
  cases h
  obtain ⟨movies, hpage⟩ := hbrings.page
  exact page_ne_ok hlist hitem hbad movies (ok_of_whole hpage)

/-- The same in the steps of the clients: the status, the text, the page. -/
theorem shown_by_steps (f : Feed) (others : Http.Charset.Decoders) (reply : Http.Reply) :
    f.shown others (.ok reply) =
      if !reply.isSuccess then []
      else match reply.text others with
        | .error _ => []
        | .ok text => (Decoder.whole f.page (.ofText (String.ofList text))).toOption.getD [] := by
  unfold Http.Reply.text
  cases hsuccess : reply.isSuccess with
  | false => exact shown_of_not_good f (by rw [hsuccess]; rfl)
  | true =>
      cases hcut : reply.cut with
      | true => exact shown_of_not_good f (by rw [hsuccess, hcut]; rfl)
      | false => exact shown_of_good f (by rw [hsuccess, hcut]; rfl)

/-! ## Pages that are good -/

theorem exists_entry (m : UInt64 × String) :
    ∃ t, Json.SealedAs (.object [("id", .whole m.1.toNat), ("title", .text m.2)]) t ∧
      RemoteCatalog.Entry.decode t = .ok ⟨m.1, m.2, none, none, none, 0.0, []⟩ := by
  have htakes := (takes_one "id" (fun d a => { d with id := some a }) rfl (by decide)
      (exists_uint64 m.1) : Takes RemoteCatalog.Entry.fields [] .blank _ _ _)
    |>.append (takes_one "title" (fun d a => { d with title := some a }) rfl (by decide)
      (exists_text m.2))
  exact htakes.exists_record rfl

theorem exists_scored (m : UInt64 × String) :
    ∃ t, Json.SealedAs (.object [("movieId", .whole m.1.toNat), ("title", .text m.2)]) t ∧
      ScoredMovie.decode t = .ok ⟨m.1, m.2, [], 0.0, 0.0⟩ := by
  have htakes := (takes_one "movieId" (fun d a => { d with id := some a }) rfl (by decide)
      (exists_uint64 m.1) : Takes ScoredMovie.fields [] .blank _ _ _)
    |>.append (takes_one "title" (fun d a => { d with title := some a }) rfl (by decide)
      (exists_text m.2))
  exact htakes.exists_record rfl

theorem exists_page (f : Feed) (listed : List (UInt64 × String)) :
    ∃ t movies, Json.SealedAs (f.written listed) t ∧ f.page t = .ok movies ∧
      movies.map (fun m => (m.id, m.title)) = listed := by
  cases f with
  | catalog images =>
      obtain ⟨u, hu, hlist⟩ := exists_list fun m (_ : m ∈ listed) =>
        (exists_entry m).imp fun t h => ⟨h.1.readAs, h.2⟩
      have htakes : Takes RemoteCatalog.Page.fields [] .blank _ _ _ :=
        takes_one "results" (fun d a => { d with entries := some a }) rfl (by decide)
          ⟨u, hu.readAs, hlist⟩
      obtain ⟨t, ht, hpage⟩ := htakes.exists_record
        (show RemoteCatalog.Page.Draft.finish _ = some ⟨0, _, 0⟩ from rfl)
      have hmovies : (catalog images).page t = .ok (RemoteCatalog.Page.movies images ⟨0, _, 0⟩) :=
        congrArg (Except.map (RemoteCatalog.Page.movies images)) hpage
      refine ⟨t, _, ht, hmovies, ?_⟩
      rw [RemoteCatalog.Page.movies, List.map_map, List.map_map]
      exact List.map_id listed
  | recommended q =>
      obtain ⟨u, hu, hlist⟩ := exists_list fun m (_ : m ∈ listed) =>
        (exists_scored m).imp fun t h => ⟨h.1.readAs, h.2⟩
      have htakes : Takes [⟨q.member, true, fun (_ : Option (List ScoredMovie)) t => do
          return some (← Decoder.list ScoredMovie.decode t)⟩] [] none _ _ _ :=
        takes_one q.member (fun _ a => some a) (List.find?_cons_of_pos (beq_self_eq_true q.member))
          List.not_mem_nil ⟨u, hu.readAs, hlist⟩
      obtain ⟨t, ht, hscored⟩ := htakes.exists_record (show id _ = some _ from rfl)
      have hmovies : (recommended q).page t = .ok (List.map _ _) :=
        congrArg (Except.map (List.map fun s : ScoredMovie => s.toMovie (q = .personal))) hscored
      refine ⟨t, _, ht, hmovies, ?_⟩
      rw [List.map_map, List.map_map]
      exact List.map_id listed

theorem shown_written (f : Feed) {reply : Http.Reply}
    (hstatus : 200 ≤ reply.status ∧ reply.status < 300) {listed : List (UInt64 × String)}
    (htext : reply.text others = .ok (f.written listed).render) :
    (f.shown others (.ok reply)).map (fun m => (m.id, m.title)) = listed := by
  obtain ⟨t, movies, ht, hpage, hmovies⟩ := f.exists_page listed
  have hsuccess : reply.isSuccess = true := by simp [Http.Reply.isSuccess, hstatus]
  have hwhole : Decoder.whole f.page (.ofText (String.ofList (f.written listed).render)) =
      .ok movies := ht.whole hpage
  rw [shown_by_steps, hsuccess, htext]
  simp only [hwhole]
  exact hmovies

/-! ## The two clients -/

theorem interpret_catalog (c : RemoteCatalog.Client) (reply : Http.Reply) :
    (c.interpret others reply).toOption.getD [] = (catalog c.images).shown others (.ok reply) := by
  rw [shown_by_steps, RemoteCatalog.Client.interpret]
  cases reply.isSuccess with
  | false => rfl
  | true =>
      cases reply.text others with
      | error failure => rfl
      | ok text =>
          simp only [Except.bind, RemoteCatalog.Page.ofText, page, whole_map]
          cases Decoder.whole RemoteCatalog.Page.decode (.ofText (String.ofList text)) <;> rfl

theorem interpret_recommended (q : Recommender.Question) (reply : Http.Reply) :
    Recommender.interpret q others reply = (recommended q).shown others (.ok reply) := by
  rw [shown_by_steps, Recommender.interpret]
  cases reply.isSuccess with
  | false => rfl
  | true =>
      cases reply.text others with
      | error failure => rfl
      | ok text =>
          simp only [page, whole_map]
          cases Decoder.whole (Recommender.decodeReply q) (.ofText (String.ofList text)) <;> rfl

section

variable {m : Type → Type} [Monad m] [LawfulMonad m] (exchange : Http.Exchange m)

/-- One request is sent to the remote catalog, and its failures are those of no list. -/
theorem ask_catalog (c : RemoteCatalog.Client) {q : RemoteCatalog.Question}
    (hq : q.refusal = none) :
    (fun found => found.toOption.getD []) <$> c.ask exchange q =
      (catalog c.images).shown exchange.decoders <$> exchange.send (c.request q) := by
  unfold RemoteCatalog.Client.ask
  rw [hq]
  simp only [map_eq_pure_bind, bind_assoc, pure_bind]
  refine bind_congr fun answer => ?_
  cases answer with
  | ok reply => exact congrArg pure (interpret_catalog c reply)
  | error failure => rfl

theorem ask_recommended (r : Recommender) (token : String) (count : Nat)
    (q : Recommender.Question) :
    r.ask exchange token count q =
      (recommended q).shown exchange.decoders <$> exchange.send (r.request token count q) := by
  unfold Recommender.ask
  rw [map_eq_pure_bind]
  refine bind_congr fun answer => ?_
  cases answer with
  | ok reply => exact congrArg pure (interpret_recommended q reply)
  | error failure => rfl

end

end Feed

end Matinee
