/-
# `Matinee.Proofs.Rating.Served` — each file is kept from the fetch that brings it

What has been kept is not seen from outside.  What is seen are the visits, and by those
a file is known if a fetch has brought it and no invalidation came after it (`Known`).
What has been kept is what is known, at any time (`fits_after`).

That explains every visit by those in front of it (`Explained`): a file that is known
is not fetched, and the answer is told from what is known.  A fetch that fails brings
nothing, so nothing more is known behind it than before, and its own visit answers like
one to an empty file.  And as a visit depends on what is kept, what is still to come
depends on what is known and on the fetches that are left (`Alike`).
-/
import Mathlib.Data.List.Induction
import Matinee.Proofs.Cache.Turns
import Matinee.Proofs.Rating.Visits

namespace Matinee.Rating.Ratings

open Cache (Since since_concat not_since_nil)

/-! ## What is known -/

/-- By these visits a file is known to hold `a`: a fetch has brought it, and no
invalidation came after it. -/
def Known {α : Type} (new? : Visit → Option α) (visits : List Visit) (a : α) : Prop :=
  Since (fun v => new? v = some a) (fun v => v.question.isInvalidate = false) visits

/-- What has been kept is what is known. -/
def Holds {α : Type} (slot : Option α) (new? : Visit → Option α) (visits : List Visit) : Prop :=
  ∀ a, slot = some a ↔ Known new? visits a

/-- What a visit does about a file, by the visits in front of it. -/
structure Attended {α ο : Type} (load : ο → Option α) (fetched : Visit → List ο) (needed : Bool)
    (front : List Visit) (v : Visit) (slot : Option α) : Prop where
  known_iff : ∀ a, slot = some a ↔ Known (Visit.new? load fetched) (front ++ [v]) a
  fetches_iff : fetched v ≠ [] ↔
    needed = true ∧ ¬ ∃ a, Known (Visit.new? load fetched) front a
  length_le : (fetched v).length ≤ 1

section Known

variable {α ο : Type} {new? : Visit → Option α} {load : ο → Option α} {outcomes : Nat → ο}
  {fetched : Visit → List ο} {needed : Bool} {visits front : List Visit} {v : Visit}
  {slot slot' : Option α} {n n' : Nat}

theorem known_concat {a : α} :
    Known new? (visits ++ [v]) a ↔
      new? v = some a ∨ Known new? visits a ∧ v.question.isInvalidate = false :=
  since_concat

theorem holds_nil : Holds none new? [] := by
  intro a
  exact iff_of_false nofun not_since_nil

theorem Holds.eq_none_iff (h : Holds slot new? visits) :
    slot = none ↔ ¬ ∃ a, Known new? visits a := by
  simp only [Option.eq_none_iff_forall_ne_some, ne_eq, h _, not_exists]

theorem Holds.concat (h : Holds slot (Visit.new? load fetched) visits)
    (hlook : Looked load outcomes needed v.question.isInvalidate slot n (fetched v) slot' n') :
    Holds slot' (Visit.new? load fetched) (visits ++ [v]) := by
  intro a
  rw [known_concat, ← h a, hlook.slot_eq]
  change _ ↔ (fetched v).findSome? load = some a ∨ _
  cases hv : (fetched v).findSome? load with
  | some b =>
      obtain ⟨hnone, hkeeps⟩ := hlook.of_brought hv
      simp [hnone, hkeeps]
  | none => cases v.question.isInvalidate <;> simp

theorem Holds.attended (h : Holds slot (Visit.new? load fetched) front)
    (hlook : Looked load outcomes needed v.question.isInvalidate slot n (fetched v) slot' n') :
    Attended load fetched needed front v slot' where
  known_iff := h.concat hlook
  fetches_iff := by
    rw [← h.eq_none_iff]
    exact hlook.ne_nil_iff
  length_le := hlook.length_le

theorem Attended.new?_eq (h : Attended load fetched needed front v slot) {o : ο}
    (ho : o ∈ fetched v) : v.new? load fetched = load o := by
  obtain ⟨o', ho'⟩ := List.length_eq_one_iff.mp
    (le_antisymm h.length_le (List.length_pos_of_mem ho))
  rw [ho', List.mem_singleton] at ho
  rw [Visit.new?, ho', ho, List.findSome?_singleton]

/-- A fetch is made because nothing is known, so if it brings nothing, nothing is. -/
theorem Attended.eq_none (h : Attended load fetched needed front v slot) {o : ο}
    (ho : o ∈ fetched v) (hload : load o = none) : slot = none := by
  have hnew := (h.new?_eq ho).trans hload
  have hnone := (h.fetches_iff.mp (List.ne_nil_of_mem ho)).2
  rw [Option.eq_none_iff_forall_ne_some]
  intro a ha
  rcases known_concat.mp ((h.known_iff a).mp ha) with ha | ⟨ha, -⟩
  · rw [hnew] at ha
    cases ha
  · exact hnone ⟨a, ha⟩

theorem Attended.of_known (h : Attended load fetched needed front v slot) {a : α}
    (ha : Known (Visit.new? load fetched) front a) :
    fetched v = [] ∧ (v.question.isInvalidate = false → slot = some a) := by
  constructor
  · by_contra hfetched
    exact (h.fetches_iff.mp hfetched).2 ⟨a, ha⟩
  · intro hkeeps
    exact (h.known_iff a).mpr (known_concat.mpr (.inr ⟨ha, hkeeps⟩))

end Known

/-! ## What a visit is, by those in front of it -/

/-- A visit with all that it has to answer from, by the visits in front of it.  Whether it
needs the table, it finds out from the links. -/
structure Explained (front : List Visit) (v : Visit) (links : Option Links)
    (table : Option Table) : Prop where
  attended_links : Attended loadLinks Visit.links v.question.needsLinks front v links
  attended_table : Attended loadTable Visit.samples (v.question.needsTable links) front v table
  answer : v.answer = v.question.answer links table

namespace Script

/-- What has been kept behind some visits is what they make known, and the fetches so far
came to what the script has first. -/
structure Fits (script : Script) (s : State) (visits : List Visit) : Prop where
  links : Holds s.kept.links Visit.newLinks? visits
  table : Holds s.kept.table Visit.newTable? visits
  links_eq : visits.flatMap (·.links) = (List.range s.links).map script.links
  samples_eq : visits.flatMap (·.samples) = (List.range s.samples).map script.samples

section Fits

variable {script : Script} {s s' : State} {visits : List Visit} {q : Question} {v : Visit}

theorem fits_start : Fits script start [] := ⟨holds_nil, holds_nil, rfl, rfl⟩

theorem Fits.concat (h : Fits script s visits) (hm : Made script s q v s') :
    Fits script s' (visits ++ [v]) := by
  obtain ⟨rfl, hlinks, htable, -⟩ := hm
  refine ⟨h.links.concat hlinks, h.table.concat htable, ?_, ?_⟩
  · rw [List.flatMap_append, h.links_eq, hlinks.map_range]
    simp
  · rw [List.flatMap_append, h.samples_eq, htable.map_range]
    simp

theorem Fits.explained (h : Fits script s visits) (hm : Made script s q v s') :
    Explained visits v s'.kept.links s'.kept.table := by
  obtain ⟨rfl, hlinks, htable, hanswer⟩ := hm
  exact ⟨h.links.attended hlinks, h.table.attended htable, hanswer⟩

end Fits

section Runs

variable {script : Script} {questions : List Question} {front back : List Visit} {v : Visit}

theorem fits_after (script : Script) (questions : List Question) :
    Fits script (script.after start questions) (script.visits questions) := by
  induction questions using List.reverseRecOn with
  | nil => exact fits_start
  | append_singleton questions q ih =>
      rw [after_concat, visits_concat]
      exact ih.concat (made _ _ _)

theorem exists_past (h : script.visits questions = front ++ v :: back) :
    ∃ past q, front = script.visits past ∧ v = (script.visit (script.after start past) q).1 := by
  have hlength : questions.length = front.length + (back.length + 1) := by
    rw [← script.length_visitsFrom start questions, ← visits, h]
    simp
  obtain ⟨past, rest, rfl, hpast⟩ : ∃ past rest, questions = past ++ rest ∧
      past.length = front.length :=
    ⟨_, _, (List.take_append_drop front.length questions).symm, by simp; omega⟩
  rw [visits, visitsFrom_append] at h
  obtain ⟨hfront, hrest⟩ := List.append_inj h ((script.length_visitsFrom _ _).trans hpast)
  cases rest with
  | nil => cases hrest
  | cons q future => exact ⟨past, q, hfront.symm, (List.cons.inj hrest).1.symm⟩

theorem explained (h : script.visits questions = front ++ v :: back) :
    ∃ links table, Explained front v links table := by
  obtain ⟨past, q, rfl, rfl⟩ := exists_past h
  exact ⟨_, _, (script.fits_after past).explained (script.made _ q)⟩

end Runs

end Script

/-! ## Runs of visits -/

namespace Visit

/-- What the fetches of a visit come to.  A file that can be read to its end is brought.  One
that cannot is not, and the visit answers like one to an empty file. -/
structure Read (v : Visit) : Prop where
  links_ok : ∀ text, .ok text ∈ v.links → v.newLinks? = some (Links.ofText text)
  links_error : ∀ f, .error f ∈ v.links →
    v.newLinks? = none ∧ ∀ table, v.answer = v.question.answer (some .empty) table
  samples_ok : ∀ chunks : List (List UInt8), .ok (chunks.map .ok) ∈ v.samples →
    v.newTable? = some ((Table.linesIn chunks).foldl Table.ingest .empty).computeMeans
  samples_error : ∀ f, .error f ∈ v.samples →
    v.newTable? = none ∧ ∀ links, v.answer = v.question.answer links (some .empty)
  samples_broken : ∀ (chunks : List (List UInt8)) f rest,
    .ok (chunks.map .ok ++ .error f :: rest) ∈ v.samples →
    v.newTable? = none ∧ ∀ links, v.answer = v.question.answer links (some .empty)

/-- What `v` has brought, `w` does not fetch, and answers from it. -/
structure Serves (v w : Visit) : Prop where
  links : ∀ l, v.newLinks? = some l →
    w.links = [] ∧ ∃ table, w.answer = w.question.answer (some l) table
  table : ∀ t, v.newTable? = some t →
    w.samples = [] ∧ ∃ links, w.answer = w.question.answer links (some t)

end Visit

/-- The same is known of a file by these visits and by those. -/
def SameKnown {α : Type} (new? : Visit → Option α) (visits visits' : List Visit) : Prop :=
  ∀ a, Known new? visits a ↔ Known new? visits' a

/-- What some questions come to. -/
structure Served (script : Script) (questions : List Question) (visits : List Visit) : Prop where
  questions_eq : visits.map (·.question) = questions
  links_eq : ∃ n, visits.flatMap (·.links) = (List.range n).map script.links
  samples_eq : ∃ n, visits.flatMap (·.samples) = (List.range n).map script.samples
  explained : ∀ (front : List Visit) (v : Visit) (back : List Visit), visits = front ++ v :: back →
    ∃ links table, Explained front v links table
  read : ∀ v ∈ visits, v.Read
  /-- From the visit that brings a file up to the next invalidation. -/
  serves : ∀ (front : List Visit) (v : Visit) (middle : List Visit) (w : Visit) (back : List Visit),
    visits = front ++ v :: middle ++ w :: back →
    (∀ u ∈ middle, u.question.isInvalidate = false) → v.Serves w
  /-- Whoever brings nothing leaves what is known as it was. -/
  failed : ∀ (front : List Visit) (v : Visit) (back : List Visit),
    visits = front ++ v :: back → v.question.isInvalidate = false →
    (v.newLinks? = none → SameKnown Visit.newLinks? (front ++ [v]) front) ∧
    (v.newTable? = none → SameKnown Visit.newTable? (front ++ [v]) front)
  /-- An id without a link does not lead to the samples. -/
  unresolved : ∀ (front : List Visit) (v : Visit) (back : List Visit),
    visits = front ++ v :: back → ∀ external, v.question.external? = some external →
    (∀ l, Known Visit.newLinks? (front ++ [v]) l → l.item? external = none) → v.samples = []

section Served

variable {front : List Visit} {v : Visit} {links : Option Links} {table : Option Table}

namespace Explained

theorem answer_of_links (h : Explained front v links table) {o : LinksFetch}
    (ho : o ∈ v.links) (hload : loadLinks o = none) :
    v.newLinks? = none ∧ ∀ table, v.answer = v.question.answer (some .empty) table := by
  refine ⟨(h.attended_links.new?_eq ho).trans hload, fun table' => ?_⟩
  have hneeds := (h.attended_links.fetches_iff.mp (List.ne_nil_of_mem ho)).1
  rw [h.answer, h.attended_links.eq_none ho hload, Question.answer_links hneeds table table']

theorem answer_of_samples (h : Explained front v links table) {o : SamplesFetch}
    (ho : o ∈ v.samples) (hload : loadTable o = none) :
    v.newTable? = none ∧ ∀ links, v.answer = v.question.answer links (some .empty) := by
  refine ⟨(h.attended_table.new?_eq ho).trans hload, fun links' => ?_⟩
  rw [h.answer, h.attended_table.eq_none ho hload, v.question.answer_table links links']

theorem read (h : Explained front v links table) : v.Read where
  links_ok _ htext := h.attended_links.new?_eq htext
  links_error _ hf := h.answer_of_links hf rfl
  samples_ok chunks hchunks := (h.attended_table.new?_eq hchunks).trans (loadTable_ok chunks)
  samples_error _ hf := h.answer_of_samples hf rfl
  samples_broken chunks f rest hbroken :=
    h.answer_of_samples hbroken (loadTable_broken chunks f rest)

theorem of_known_links (h : Explained front v links table) {l : Links}
    (hl : Known Visit.newLinks? front l) :
    v.links = [] ∧ ∃ table, v.answer = v.question.answer (some l) table := by
  obtain ⟨hfetched, hslot⟩ := h.attended_links.of_known hl
  refine ⟨hfetched, table, ?_⟩
  rw [h.answer]
  cases hkeeps : v.question.isInvalidate with
  | false => rw [hslot hkeeps]
  | true => exact Question.answer_of_isInvalidate hkeeps

theorem of_known_table (h : Explained front v links table) {t : Table}
    (ht : Known Visit.newTable? front t) :
    v.samples = [] ∧ ∃ links, v.answer = v.question.answer links (some t) := by
  obtain ⟨hfetched, hslot⟩ := h.attended_table.of_known ht
  refine ⟨hfetched, links, ?_⟩
  rw [h.answer]
  cases hkeeps : v.question.isInvalidate with
  | false => rw [hslot hkeeps]
  | true => exact Question.answer_of_isInvalidate hkeeps

theorem unresolved (h : Explained front v links table) {external : UInt64}
    (hexternal : v.question.external? = some external)
    (hnone : ∀ l, Known Visit.newLinks? (front ++ [v]) l → l.item? external = none) :
    v.samples = [] := by
  have hitem : links.bind (·.item? external) = none := by
    cases hl : links with
    | none => rfl
    | some l => exact hnone l ((h.attended_links.known_iff l).mp hl)
  by_contra hfetched
  have hneeds := (h.attended_table.fetches_iff.mp hfetched).1
  rw [Question.needsTable_of_external? hexternal, hitem] at hneeds
  cases hneeds

end Explained

theorem sameKnown_concat {α : Type} {new? : Visit → Option α} (hnew : new? v = none)
    (hkeeps : v.question.isInvalidate = false) : SameKnown new? (front ++ [v]) front := by
  intro a
  simp [known_concat, hnew, hkeeps]

end Served

theorem Script.map_question (script : Script) (questions : List Question) :
    ∀ s, (script.visitsFrom s questions).map (·.question) = questions := by
  induction questions with
  | nil => exact fun _ => rfl
  | cons q questions ih =>
      intro s
      rw [visitsFrom, List.map_cons, ih, (script.made s q).question]

theorem Script.served (script : Script) (questions : List Question) :
    Served script questions (script.visits questions) where
  questions_eq := script.map_question questions start
  links_eq := ⟨_, (script.fits_after questions).links_eq⟩
  samples_eq := ⟨_, (script.fits_after questions).samples_eq⟩
  explained _ _ _ h := explained h
  read v hv := by
    obtain ⟨front, back, h⟩ := List.append_of_mem hv
    obtain ⟨links, table, h⟩ := explained h
    exact h.read
  serves front v middle w back h hmiddle := by
    obtain ⟨links, table, h⟩ := explained h
    exact ⟨fun l hl => h.of_known_links ⟨front, v, middle, rfl, hl, hmiddle⟩,
      fun t ht => h.of_known_table ⟨front, v, middle, rfl, ht, hmiddle⟩⟩
  failed _ _ _ _ hkeeps := ⟨fun h => sameKnown_concat h hkeeps, fun h => sameKnown_concat h hkeeps⟩
  unresolved front v back h external hexternal hnone := by
    obtain ⟨links, table, h⟩ := explained h
    exact h.unresolved hexternal hnone

/-! ## What is to come -/

namespace Script

/-- What fetches behind these visits come to. -/
def rest (script : Script) (visits : List Visit) : Script where
  links n := script.links ((visits.flatMap (·.links)).length + n)
  samples n := script.samples ((visits.flatMap (·.samples)).length + n)

theorem rest_nil (script : Script) : script.rest [] = script := by
  simp [rest]

/-- In two states the same is kept, and further fetches come to the same. -/
structure Alike (script : Script) (s : State) (script' : Script) (s' : State) : Prop where
  kept : s.kept = s'.kept
  links : ∀ i, script.links (s.links + i) = script'.links (s'.links + i)
  samples : ∀ i, script.samples (s.samples + i) = script'.samples (s'.samples + i)

variable {script script' : Script} {s s' : State}

theorem Alike.visit (h : Alike script s script' s') (q : Question) :
    (script.visit s q).1 = (script'.visit s' q).1 ∧
      Alike script (script.visit s q).2 script' (script'.visit s' q).2 := by
  -- all that matters of either visit is that it is made in its state
  have hm := script.made s q
  have hm' := script'.made s' q
  revert hm hm'
  generalize script.visit s q = r
  generalize script'.visit s' q = r'
  obtain ⟨v, t⟩ := r
  obtain ⟨v', t'⟩ := r'
  rintro ⟨hquestion, hlinks, htable, hanswer⟩ ⟨hquestion', hlinks', htable', hanswer'⟩
  rw [← h.kept] at hlinks' htable'
  obtain ⟨hfetched, hkept, hnext⟩ := hlinks.unique hlinks' h.links
  rw [← hkept] at htable' hanswer'
  obtain ⟨hfetchedTable, hkeptTable, hnextTable⟩ := htable.unique htable' h.samples
  rw [← hkeptTable] at hanswer'
  refine ⟨?_, ?_, hnext, hnextTable⟩
  · exact Visit.mk.injEq .. ▸ ⟨hquestion.trans hquestion'.symm, hfetched, hfetchedTable,
      hanswer.trans hanswer'.symm⟩
  · exact Ratings.mk.injEq .. ▸ ⟨hkept, hkeptTable⟩

theorem Alike.visitsFrom (h : Alike script s script' s') (questions : List Question) :
    script.visitsFrom s questions = script'.visitsFrom s' questions := by
  induction questions generalizing s s' with
  | nil => rfl
  | cons q questions ih =>
      obtain ⟨hvisit, hnext⟩ := h.visit q
      rw [Script.visitsFrom, Script.visitsFrom, hvisit, ih hnext]

theorem Fits.length_links {visits : List Visit} (h : Fits script s visits) :
    (visits.flatMap (·.links)).length = s.links := by
  rw [h.links_eq, List.length_map, List.length_range]

theorem Fits.length_samples {visits : List Visit} (h : Fits script s visits) :
    (visits.flatMap (·.samples)).length = s.samples := by
  rw [h.samples_eq, List.length_map, List.length_range]

theorem Fits.alike {visits visits' : List Visit} (h : Fits script s visits)
    (h' : Fits script' s' visits') (hlinks : SameKnown Visit.newLinks? visits visits')
    (htable : SameKnown Visit.newTable? visits visits')
    (hrest : script.rest visits = script'.rest visits') : Alike script s script' s' where
  kept := by
    have hl : s.kept.links = s'.kept.links :=
      Option.ext fun l => (h.links l).trans ((hlinks l).trans (h'.links l).symm)
    have ht : s.kept.table = s'.kept.table :=
      Option.ext fun t => (h.table t).trans ((htable t).trans (h'.table t).symm)
    exact Ratings.mk.injEq .. ▸ ⟨hl, ht⟩
  links n := by
    rw [← h.length_links, ← h'.length_links]
    exact congrFun (congrArg Script.links hrest) n
  samples n := by
    rw [← h.length_samples, ← h'.length_samples]
    exact congrFun (congrArg Script.samples hrest) n

theorem drop_visits (script : Script) (past future : List Question) :
    (script.visits (past ++ future)).drop past.length =
      script.visitsFrom (script.after start past) future := by
  rw [visits, visitsFrom_append, ← script.length_visitsFrom start past, List.drop_left]

end Script

/-- **Each file is fetched until it is had, and kept until it is forgotten.**  Whatever the
fetches come to and whatever is asked, each answer is told from the files that are known, and
a file is fetched by those who need it as long as it is not known (`Served`).  What is still to
come depends on what is known and on the fetches that are left: behind two pasts that know the
same, the same questions are visited alike, if further fetches come to the same.  A fetch that
fails makes nothing known, so it leaves no trace except that the file is fetched again. -/
theorem each_file_kept_once_had (script : Script) (past : List Question) :
    Served script past (script.visits past) ∧
    ∀ (script' : Script) (past' future : List Question),
      SameKnown Visit.newLinks? (script.visits past) (script'.visits past') →
      SameKnown Visit.newTable? (script.visits past) (script'.visits past') →
      script.rest (script.visits past) = script'.rest (script'.visits past') →
      (script.visits (past ++ future)).drop past.length =
        (script'.visits (past' ++ future)).drop past'.length := by
  refine ⟨script.served past, fun script' past' future hlinks htable hrest => ?_⟩
  rw [Script.drop_visits, Script.drop_visits]
  exact ((script.fits_after past).alike (script'.fits_after past') hlinks htable hrest).visitsFrom
    future

/-- A stream that breaks off and links that cannot be read change nothing for what is asked
behind them; it is answered as if the two fetches had not been made. -/
theorem each_file_kept_once_had_after_failures :
    let script : Script :=
      { links := fun n =>
          if n = 0 then .error (.io "no such file") else .ok "h\n5,1,7".toList
        samples := fun n =>
          if n = 0 then
            .ok [.ok (Text.Utf8.encode "h\n1,5,4.5\n".toList), .error (.io "broken pipe")]
          else .ok [.ok (Text.Utf8.encode "h\n1,5,3".toList)] }
    let past : List Question := [.meanOfItem 5, .ofExternal 7]
    let visits := script.visits past
    visits.map (fun v => (v.links.length, v.samples.length)) = [(0, 1), (1, 0)] ∧
      Served script past visits ∧
      SameKnown Visit.newLinks? visits [] ∧ SameKnown Visit.newTable? visits [] ∧
      ∀ future, (script.visits (past ++ future)).drop 2 = (script.rest visits).visits future := by
  intro script past visits
  obtain ⟨hserved, hlater⟩ := each_file_kept_once_had script past
  have hfirst := hserved.failed [] (script.visit Script.start (.meanOfItem 5)).1 _ rfl rfl
  have hsecond := hserved.failed [_] _ [] rfl rfl
  have hlinks : SameKnown Visit.newLinks? visits [] := fun l =>
    (hsecond.1 rfl l).trans (hfirst.1 rfl l)
  have htable : SameKnown Visit.newTable? visits [] := fun t =>
    (hsecond.2 rfl t).trans (hfirst.2 rfl t)
  refine ⟨rfl, hserved, hlinks, htable, fun future => ?_⟩
  refine hlater (script.rest visits) [] future hlinks htable ?_
  exact (Script.rest_nil _).symm

end Matinee.Rating.Ratings
