/-
# `Matinee.Proofs.Rating.Visits` — what a question does to the two files

Two files stand behind the ratings, and what a fetch of one comes to may change from
fetch to fetch (`Script`).  Questions need one of the files or both, or neither, and may
find out only from the first that they need the second.

A question does two things to a file at most.  It may fetch it, and keep what the fetch
brings (`lookAt`); and it answers from what has been kept in the end (`run_ask`).  So
a question with its fetches and its answer, which is all that is seen of it from outside
(`Visit`), depends on what is kept alone (`made`).  A run is one visit after the other.
-/
import Matinee.Proofs.Rating.Table
import Matinee.Rating.Ratings

namespace Matinee

/-- A look at a slot, in one step: if it is empty, the outcome of the fill is what matters. -/
theorem Cache.run_getOrFill {σ ε α : Type} (fill : StateM σ (Except ε α)) (slot : Cache α) (t : σ) :
    ((Cache.getOrFill fill).run slot).run t =
      match slot with
      | some a => ((.ok a, some a), t)
      | none => (((fill.run t).1, (fill.run t).1.toOption), (fill.run t).2) := by
  cases slot with
  | some a => rfl
  | none =>
      rcases hfill : fill.run t with ⟨o, t'⟩
      cases o <;> simp [Cache.getOrFill, hfill] <;> rfl

namespace Rating.Ratings

/-! ## Questions -/

/-- What the ratings can be asked. -/
inductive Question where
  | meanOfExternal (external : UInt64)
  | ofExternal (external : UInt64)
  | meanOfItem (item : UInt64)
  | ofItem (item : UInt64)
  | ofMany (externals : List UInt64) (votes : Std.TreeMap UInt64 Float)
  | invalidate

inductive Answer where
  | mean (x : Option Float)
  | rating (a : Option Aggregate)
  | ratings (found : Std.TreeMap UInt64 Float)
  | forgotten

/-- What is told of many external ids, from what could be had of the two files. -/
def manyOf (links : Option Links) (table : Option Table) (externals : List UInt64)
    (votes : Std.TreeMap UInt64 Float) : Std.TreeMap UInt64 Float :=
  externals.foldl
    (fun found external =>
      match (datasetMean links table external).or (voteRating votes external) with
      | some x => found.insert external x
      | none => found)
    ∅

namespace Question

def ask {m : Type → Type} [Monad m] (sources : Sources m) : Question → StateT Ratings m Answer
  | .meanOfExternal external => Answer.mean <$> Ratings.meanOfExternal sources external
  | .ofExternal external => Answer.rating <$> Ratings.ofExternal sources external
  | .meanOfItem item => Answer.mean <$> Ratings.meanOfItem sources item
  | .ofItem item => Answer.rating <$> Ratings.ofItem sources item
  | .ofMany externals votes => Answer.ratings <$> Ratings.ofMany sources externals votes
  | .invalidate => (fun _ => Answer.forgotten) <$> Ratings.invalidate

/-- The answer from what could be had of the two files. -/
def answer (links : Option Links) (table : Option Table) : Question → Answer
  | .meanOfExternal external => .mean (datasetMean links table external)
  | .ofExternal external =>
    .rating ((links.bind (·.item? external)).bind fun item => table.bind (·.aggregate? item))
  | .meanOfItem item => .mean (table.bind (·.mean? item))
  | .ofItem item => .rating (table.bind (·.aggregate? item))
  | .ofMany externals votes => .ratings (manyOf links table externals votes)
  | .invalidate => .forgotten

/-- The external id whose mean or rating alone is asked for. -/
def external? : Question → Option UInt64
  | .meanOfExternal external | .ofExternal external => some external
  | _ => none

def isInvalidate : Question → Bool
  | .invalidate => true
  | _ => false

/-- The links are needed for the answer. -/
def needsLinks : Question → Bool
  | .meanOfExternal _ | .ofExternal _ | .ofMany _ _ => true
  | _ => false

/-- The table is needed for the answer, if these are the links. -/
def needsTable (links : Option Links) : Question → Bool
  | .meanOfExternal external | .ofExternal external => (links.bind (·.item? external)).isSome
  | .meanOfItem _ | .ofItem _ | .ofMany _ _ => true
  | .invalidate => false

theorem isInvalidate_of_needsLinks {q : Question} (hq : q.needsLinks = true) :
    q.isInvalidate = false := by
  cases q <;> first | rfl | cases hq

theorem isInvalidate_of_needsTable {q : Question} {links : Option Links}
    (hq : q.needsTable links = true) : q.isInvalidate = false := by
  cases q <;> first | rfl | cases hq

theorem answer_of_isInvalidate {q : Question} (hq : q.isInvalidate = true)
    {links links' : Option Links} {table table' : Option Table} :
    q.answer links table = q.answer links' table' := by
  cases q <;> first | rfl | cases hq

theorem needsTable_of_external? {q : Question} {external : UInt64}
    (hq : q.external? = some external) (links : Option Links) :
    q.needsTable links = (links.bind (·.item? external)).isSome := by
  cases q <;> cases hq <;> rfl

end Question

/-! ### Files that hold nothing -/

theorem datasetMean_eq (links : Option Links) (table : Option Table) (external : UInt64) :
    datasetMean links table external =
      (links.bind (·.item? external)).bind fun item => table.bind (·.mean? item) := by
  cases links <;> cases table <;> simp [datasetMean]

theorem datasetMean_links (external : UInt64) (table : Option Table) :
    datasetMean (some .empty) table external = none := by
  rw [datasetMean_eq]
  simp [Links.empty, Links.item?]

theorem datasetMean_table (external : UInt64) (links : Option Links) :
    datasetMean links (some .empty) external = none := by
  rw [datasetMean_eq]
  simp [Table.empty, Table.mean?]

/-- Links that could not be had answer like those of an empty file. -/
theorem Question.answer_links {q : Question} (hq : q.needsLinks = true)
    (table table' : Option Table) : q.answer none table = q.answer (some .empty) table' := by
  cases q with
  | meanOfExternal external =>
      rw [answer, answer, datasetMean_links, datasetMean_eq]
      rfl
  | ofExternal external => simp [answer, Links.empty, Links.item?]
  | ofMany externals votes =>
      simp only [answer, manyOf, datasetMean_links, datasetMean_eq none, Option.bind_none]
  | meanOfItem item => cases hq
  | ofItem item => cases hq
  | invalidate => cases hq

theorem Question.answer_table (q : Question) (links links' : Option Links) :
    q.answer links none = q.answer links' (some .empty) := by
  cases q with
  | meanOfExternal external =>
      rw [answer, answer, datasetMean_table, datasetMean_eq]
      simp
  | ofExternal external => simp [answer, Table.empty, Table.aggregate?, Table.mean?]
  | ofMany externals votes =>
      simp only [answer, manyOf, datasetMean_table, datasetMean_eq _ none, Option.bind_none,
        Option.bind_fun_none]
  | meanOfItem item => simp [answer, Table.empty, Table.mean?]
  | ofItem item => simp [answer, Table.empty, Table.aggregate?, Table.mean?]
  | invalidate => rfl

/-! ## One look at a file -/

section Look

variable {α ο : Type}

/-- What has been kept of a file behind a look at it, and how often it has been fetched. -/
def lookAt (load : ο → Option α) (outcomes : Nat → ο) (needed : Bool) (slot : Option α) (n : Nat) :
    Option α × Nat :=
  if needed && slot.isNone then (load (outcomes n), n + 1) else (slot, n)

/-- What the fetches came to while their number grew from `n` to `n'`. -/
def between (outcomes : Nat → ο) (n n' : Nat) : List ο := (List.range' n (n' - n)).map outcomes

/-- All that a question does to a file: it is fetched if it is needed and has not been kept,
and what a fetch brings is kept, or else everything is forgotten. -/
structure Looked (load : ο → Option α) (outcomes : Nat → ο) (needed forgets : Bool)
    (slot : Option α) (n : Nat) (fetched : List ο) (slot' : Option α) (n' : Nat) : Prop where
  needed_keeps : needed = true → forgets = false
  fetched_eq : fetched = if needed && slot.isNone then [outcomes n] else []
  slot_eq : slot' = if forgets then none else slot.or (fetched.findSome? load)
  count_eq : n' = n + fetched.length

theorem looked_lookAt {load : ο → Option α} {outcomes : Nat → ο} {needed forgets : Bool}
    {slot : Option α} {n : Nat} (h : needed = true → forgets = false) :
    let r := lookAt load outcomes needed slot n
    Looked load outcomes needed forgets slot n (between outcomes n r.2)
      (if forgets then none else r.1) r.2 := by
  intro r
  refine ⟨h, ?_, ?_, ?_⟩ <;> cases needed <;> cases slot <;> simp [r, lookAt, between]

namespace Looked

variable {load : ο → Option α} {outcomes : Nat → ο} {needed forgets : Bool} {slot slot' : Option α}
  {n n' : Nat} {fetched : List ο}

theorem ne_nil_iff (h : Looked load outcomes needed forgets slot n fetched slot' n') :
    fetched ≠ [] ↔ needed = true ∧ slot = none := by
  rw [h.fetched_eq]
  split <;> simp_all

theorem length_le (h : Looked load outcomes needed forgets slot n fetched slot' n') :
    fetched.length ≤ 1 := by
  rw [h.fetched_eq]
  split <;> simp

/-- Whoever brings something has found nothing kept, and forgets nothing. -/
theorem of_brought (h : Looked load outcomes needed forgets slot n fetched slot' n') {a : α}
    (ha : fetched.findSome? load = some a) : slot = none ∧ forgets = false := by
  have hfetched : fetched ≠ [] := by
    rintro rfl
    cases ha
  obtain ⟨hneeded, hnone⟩ := h.ne_nil_iff.mp hfetched
  exact ⟨hnone, h.needed_keeps hneeded⟩

theorem map_range (h : Looked load outcomes needed forgets slot n fetched slot' n') :
    (List.range n').map outcomes = (List.range n).map outcomes ++ fetched := by
  rw [h.count_eq, h.fetched_eq]
  split <;> simp [List.range_succ]

theorem unique {outcomes' : Nat → ο} {slot'' : Option α} {m m' : Nat} {fetched' : List ο}
    (h : Looked load outcomes needed forgets slot n fetched slot' n')
    (h' : Looked load outcomes' needed forgets slot m fetched' slot'' m')
    (hnext : ∀ i, outcomes (n + i) = outcomes' (m + i)) :
    fetched = fetched' ∧ slot' = slot'' ∧ ∀ i, outcomes (n' + i) = outcomes' (m' + i) := by
  have hfetched : fetched = fetched' := by
    rw [h.fetched_eq, h'.fetched_eq]
    exact congrArg (fun o => if needed && slot.isNone then [o] else []) (hnext 0)
  refine ⟨hfetched, ?_, ?_⟩
  · rw [h.slot_eq, h'.slot_eq, hfetched]
  · intro i
    rw [h.count_eq, h'.count_eq, ← hfetched, Nat.add_assoc, Nat.add_assoc, hnext]

end Looked

end Look

/-- What a fetch of the links comes to. -/
abbrev LinksFetch := Except Failure (List Char)

/-- What a fetch of the samples comes to.  The stream may fail behind some chunks. -/
abbrev SamplesFetch := Except Failure (List (Except Failure (List UInt8)))

/-- What a fetch of the links brings, if it does not fail. -/
def loadLinks (outcome : LinksFetch) : Option Links :=
  (outcome.map Links.ofText).toOption

/-- What a fetch of the samples brings, if it neither fails nor breaks off. -/
def loadTable (outcome : SamplesFetch) : Option Table :=
  (outcome.bind Table.ofChunks).toOption

theorem loadTable_ok (chunks : List (List UInt8)) :
    loadTable (.ok (chunks.map .ok)) =
      some ((Table.linesIn chunks).foldl Table.ingest .empty).computeMeans := by
  simp only [loadTable, Except.bind, Table.ofChunks_ok]
  rfl

theorem loadTable_broken (chunks : List (List UInt8)) (f : Failure)
    (rest : List (Except Failure (List UInt8))) :
    loadTable (.ok (chunks.map .ok ++ .error f :: rest)) = none := by
  simp only [loadTable, Except.bind, Table.ofChunks_error]
  rfl

/-! ## Scripts -/

/-- What each fetch of the two files comes to. -/
structure Script where
  links : Nat → LinksFetch
  samples : Nat → SamplesFetch

/-- What has been kept, and how often each file has been fetched. -/
structure State where
  kept : Ratings
  links : Nat
  samples : Nat

namespace Script

/-- The two files as the script has them; the state counts their fetches. -/
def sources (script : Script) : Sources (StateM (Nat × Nat)) where
  links := fun (links, samples) => (script.links links, links + 1, samples)
  samples := fun (links, samples) => (script.samples samples, links, samples + 1)

/-- Something is asked in a state. -/
def run {α : Type} (s : State) (ask : StateT Ratings (StateM (Nat × Nat)) α) : α × State :=
  let ((a, kept), links, samples) := (ask.run s.kept).run (s.links, s.samples)
  (a, ⟨kept, links, samples⟩)

def lookLinks (script : Script) (needed : Bool) (s : State) : Option Links × Nat :=
  lookAt loadLinks script.links needed s.kept.links s.links

def lookTable (script : Script) (needed : Bool) (s : State) : Option Table × Nat :=
  lookAt loadTable script.samples needed s.kept.table s.samples

/-- The state behind a question.  It looks at the table with what it knows of the links. -/
def next (script : Script) (s : State) (q : Question) : State :=
  let (links, countLinks) := script.lookLinks q.needsLinks s
  let (table, countSamples) := script.lookTable (q.needsTable links) s
  ⟨if q.isInvalidate then empty else ⟨links, table⟩, countLinks, countSamples⟩

section Run

variable {α β : Type} (script : Script) (s : State)

theorem run_pure (a : α) : run s (pure a) = (a, s) := rfl

theorem run_bind (x : StateT Ratings (StateM (Nat × Nat)) α)
    (f : α → StateT Ratings (StateM (Nat × Nat)) β) :
    run s (x >>= f) = run (run s x).2 (f (run s x).1) := rfl

theorem run_map (g : α → β) (x : StateT Ratings (StateM (Nat × Nat)) α) :
    run s (g <$> x) = (g (run s x).1, (run s x).2) := rfl

theorem run_onLinks (look : StateT (Cache Links) (StateM (Nat × Nat)) α) :
    run s (onLinks look) =
      let ((a, links), counts) := (look.run s.kept.links).run (s.links, s.samples)
      (a, ⟨{ s.kept with links }, counts.1, counts.2⟩) := rfl

theorem run_onTable (look : StateT (Cache Table) (StateM (Nat × Nat)) α) :
    run s (onTable look) =
      let ((a, table), counts) := (look.run s.kept.table).run (s.links, s.samples)
      (a, ⟨{ s.kept with table }, counts.1, counts.2⟩) := rfl

theorem run_links? :
    run s (links? script.sources) =
      let (links, count) := script.lookLinks true s
      (links, ⟨{ s.kept with links }, count, s.samples⟩) := by
  rw [links?, run_bind, run_onLinks, Cache.run_getOrFill]
  obtain ⟨⟨links, table⟩, nl, ns⟩ := s
  cases links <;> rfl

theorem run_table? :
    run s (table? script.sources) =
      let (table, count) := script.lookTable true s
      (table, ⟨{ s.kept with table }, s.links, count⟩) := by
  rw [table?, run_bind, run_onTable, Cache.run_getOrFill]
  obtain ⟨⟨links, table⟩, nl, ns⟩ := s
  cases table <;> rfl

theorem run_meanOfItem (item : UInt64) :
    run s (meanOfItem script.sources item) =
      let (table, count) := script.lookTable true s
      (table.bind (·.mean? item), ⟨{ s.kept with table }, s.links, count⟩) := by
  rw [meanOfItem, run_bind, run_table?]
  rfl

theorem run_ofItem (item : UInt64) :
    run s (ofItem script.sources item) =
      let (table, count) := script.lookTable true s
      (table.bind (·.aggregate? item), ⟨{ s.kept with table }, s.links, count⟩) := by
  rw [ofItem, run_bind, run_table?]
  rfl

theorem run_meanOfExternal (external : UInt64) :
    run s (meanOfExternal script.sources external) =
      let s' := script.next s (.meanOfExternal external)
      (datasetMean s'.kept.links s'.kept.table external, s') := by
  rw [meanOfExternal, run_bind, run_links?]
  simp only [next, Question.needsLinks, Question.needsTable, Question.isInvalidate, datasetMean_eq]
  cases h : (script.lookLinks true s).1.bind (·.item? external) with
  | none => simp [run_pure, h, lookTable, lookAt]
  | some item => simp [run_meanOfItem, h, lookTable]

theorem run_ofExternal (external : UInt64) :
    run s (ofExternal script.sources external) =
      let s' := script.next s (.ofExternal external)
      ((s'.kept.links.bind (·.item? external)).bind fun item =>
        s'.kept.table.bind (·.aggregate? item), s') := by
  rw [ofExternal, run_bind, run_links?]
  simp only [next, Question.needsLinks, Question.needsTable, Question.isInvalidate]
  cases h : (script.lookLinks true s).1.bind (·.item? external) with
  | none => simp [run_pure, h, lookTable, lookAt]
  | some item => simp [run_ofItem, h, lookTable]

theorem run_ofMany (externals : List UInt64) (votes : Std.TreeMap UInt64 Float) :
    run s (ofMany script.sources externals votes) =
      let s' := script.next s (.ofMany externals votes)
      (manyOf s'.kept.links s'.kept.table externals votes, s') := by
  rw [ofMany, run_bind, run_links?]
  simp only
  rw [run_bind, run_table?]
  rfl

theorem run_ask (q : Question) :
    run s (q.ask script.sources) =
      (q.answer (script.next s q).kept.links (script.next s q).kept.table, script.next s q) := by
  cases q with
  | meanOfExternal external => rw [Question.ask, run_map, run_meanOfExternal]; rfl
  | ofExternal external => rw [Question.ask, run_map, run_ofExternal]; rfl
  | meanOfItem item => rw [Question.ask, run_map, run_meanOfItem]; rfl
  | ofItem item => rw [Question.ask, run_map, run_ofItem]; rfl
  | ofMany externals votes => rw [Question.ask, run_map, run_ofMany]; rfl
  | invalidate => rfl

end Run

end Script

/-! ## Visits -/

/-- A question with its answer, and what each fetch of the two files came to in between. -/
structure Visit where
  question : Question
  links : List LinksFetch
  samples : List SamplesFetch
  answer : Answer

namespace Visit

/-- What the fetches of a file have brought. -/
def new? {α ο : Type} (load : ο → Option α) (fetched : Visit → List ο) (v : Visit) : Option α :=
  (fetched v).findSome? load

def newLinks? : Visit → Option Links := new? loadLinks links

def newTable? : Visit → Option Table := new? loadTable samples

end Visit

namespace Script

/-- A question in a state, and the state behind it. -/
def visit (script : Script) (s : State) (q : Question) : Visit × State :=
  let (answer, s') := run s (q.ask script.sources)
  (⟨q, between script.links s.links s'.links, between script.samples s.samples s'.samples,
    answer⟩, s')

def visitsFrom (script : Script) : State → List Question → List Visit
  | _, [] => []
  | s, q :: questions => (script.visit s q).1 :: script.visitsFrom (script.visit s q).2 questions

/-- The state behind some questions. -/
def after (script : Script) (s : State) (questions : List Question) : State :=
  questions.foldl (fun s q => (script.visit s q).2) s

/-- Nothing has been asked. -/
def start : State := ⟨empty, 0, 0⟩

def visits (script : Script) (questions : List Question) : List Visit :=
  script.visitsFrom start questions

/-- All that a visit is, and does to the state. -/
structure Made (script : Script) (s : State) (q : Question) (v : Visit) (s' : State) : Prop where
  question : v.question = q
  links : Looked loadLinks script.links q.needsLinks q.isInvalidate
    s.kept.links s.links v.links s'.kept.links s'.links
  table : Looked loadTable script.samples (q.needsTable s'.kept.links) q.isInvalidate
    s.kept.table s.samples v.samples s'.kept.table s'.samples
  answer : v.answer = q.answer s'.kept.links s'.kept.table

theorem needsTable_next (script : Script) (s : State) (q : Question) :
    q.needsTable (script.next s q).kept.links =
      q.needsTable (script.lookLinks q.needsLinks s).1 := by
  cases q <;> rfl

theorem links_next (script : Script) (s : State) (q : Question) :
    (script.next s q).kept.links =
      if q.isInvalidate then none else (script.lookLinks q.needsLinks s).1 := by
  cases q <;> rfl

theorem table_next (script : Script) (s : State) (q : Question) :
    (script.next s q).kept.table =
      if q.isInvalidate then none
      else (script.lookTable (q.needsTable (script.next s q).kept.links) s).1 := by
  rw [needsTable_next]
  cases q <;> rfl

theorem made (script : Script) (s : State) (q : Question) :
    Made script s q (script.visit s q).1 (script.visit s q).2 := by
  simp only [visit, run_ask]
  refine ⟨rfl, ?_, ?_, rfl⟩
  · rw [links_next]
    exact looked_lookAt Question.isInvalidate_of_needsLinks
  · rw [table_next, needsTable_next]
    have hkeeps : q.needsTable (script.lookLinks q.needsLinks s).1 = true →
        q.isInvalidate = false := Question.isInvalidate_of_needsTable
    exact looked_lookAt hkeeps

/-! ### Runs -/

section

variable (script : Script) (s : State)

theorem visitsFrom_append (questions rest : List Question) :
    script.visitsFrom s (questions ++ rest) =
      script.visitsFrom s questions ++ script.visitsFrom (script.after s questions) rest := by
  induction questions generalizing s with
  | nil => rfl
  | cons q questions ih => exact congrArg (_ :: ·) (ih (script.visit s q).2)

theorem after_concat (questions : List Question) (q : Question) :
    script.after s (questions ++ [q]) = (script.visit (script.after s questions) q).2 :=
  List.foldl_append

theorem visits_concat (questions : List Question) (q : Question) :
    script.visits (questions ++ [q]) =
      script.visits questions ++ [(script.visit (script.after start questions) q).1] :=
  script.visitsFrom_append start questions [q]

theorem length_visitsFrom (questions : List Question) :
    (script.visitsFrom s questions).length = questions.length := by
  induction questions generalizing s with
  | nil => rfl
  | cons q questions ih => exact congrArg (· + 1) (ih (script.visit s q).2)

end

end Script

end Rating.Ratings

end Matinee
