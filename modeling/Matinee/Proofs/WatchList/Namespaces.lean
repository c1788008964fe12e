/-
# `Matinee.Proofs.WatchList.Namespaces` — lists in different namespaces do not meet

The name of an item holds no colon, so of a key the last colon tells the namespace from
the item, whatever colons the namespace has itself (`Item.key_inj`).  Two lists whose
namespaces differ therefore have no key in common, for the saved movies or the date of
the account, and a lock belongs to one list.

Operations on such lists are tasks apart (`Store.Apart`): each has the replies that it
would have without those on the other list, and finds the same texts.
-/
import Matinee.Proofs.Store.Apart
import Matinee.Proofs.WatchList.AccountDate
import Matinee.Proofs.WatchList.Sequential

namespace Matinee.Store.Item

/-! ## Keys -/

/-- What stands in a key in front of the name of the item. -/
def front (ns : String) : List Char := if ns.isEmpty then [] else ns.toList ++ [':']

theorem toList_key (i : Item) (space : Option String) :
    (i.key space).toList = front (space.getD "") ++ i.name.toList := by
  cases space with
  | none => rfl
  | some ns =>
      show (if ns.isEmpty then i.name else ns ++ ":" ++ i.name).toList = _
      rw [Option.getD_some, front]
      split
      · rfl
      · rw [String.toList_append, String.toList_append]
        rfl

theorem colon_notMem_name (i : Item) : ':' ∉ i.name.toList := by
  cases i <;> decide +kernel

theorem name_inj {i j : Item} (h : i.name = j.name) : i = j := by
  revert h
  cases i <;> cases j <;> decide +kernel

theorem front_inj {ns ns' : String} (h : front ns = front ns') : ns = ns' := by
  unfold front at h
  split at h <;> split at h
  · rename_i hns hns'
    rw [String.isEmpty_iff.mp hns, String.isEmpty_iff.mp hns']
  · simp at h
  · simp at h
  · exact String.toList_inj.mp (List.append_cancel_right h)

/-- A front that is longer by a piece has its colon in the piece. -/
theorem eq_nil_of_front_append {ns ns' : String} {piece : List Char}
    (h : front ns' = front ns ++ piece) (hcolon : ':' ∉ piece) : piece = [] := by
  rcases List.eq_nil_or_concat' piece with hnil | ⟨most, last, rfl⟩
  · exact hnil
  · rw [← List.append_assoc] at h
    unfold front at h
    split at h
    · exact absurd h.symm (List.append_ne_nil_of_right_ne_nil _ (List.cons_ne_nil _ _))
    · have hlast : ':' = last := (List.cons.inj (List.append_inj' h rfl).2).1
      exact absurd (List.mem_append_right most (List.mem_singleton.mpr hlast)) hcolon

theorem key_inj {i j : Item} {a b : Option String} (h : i.key a = j.key b) :
    i = j ∧ a.getD "" = b.getD "" := by
  have hlist : front (a.getD "") ++ i.name.toList = front (b.getD "") ++ j.name.toList := by
    rw [← toList_key, ← toList_key, h]
  rcases List.append_eq_append_iff.mp hlist with ⟨piece, hfront, hname⟩ | ⟨piece, hfront, hname⟩
  · have hnil := eq_nil_of_front_append hfront fun hcolon =>
      colon_notMem_name i (by rw [hname]; exact List.mem_append_left _ hcolon)
    rw [hnil] at hfront hname
    exact ⟨name_inj (String.toList_inj.mp hname),
      (front_inj (hfront.trans (List.append_nil _))).symm⟩
  · have hnil := eq_nil_of_front_append hfront fun hcolon =>
      colon_notMem_name j (by rw [hname]; exact List.mem_append_left _ hcolon)
    rw [hnil] at hfront hname
    exact ⟨(name_inj (String.toList_inj.mp hname)).symm,
      front_inj (hfront.trans (List.append_nil _))⟩

end Matinee.Store.Item

namespace Matinee.WatchList

open Matinee.Store (Contents Fate Item Program Share System Task)

/-- The namespace of a list; none is the empty one. -/
def spaceName (w : WatchList) : String := w.space.getD ""

/-! ## Operations of both kinds -/

/-- An operation on the saved movies, or a call about the date of the account. -/
inductive Job where
  | list (o : Operation)
  | date (c : DateCall)

inductive JobReply where
  | list (r : Reply)
  | date (r : DateReply)
deriving DecidableEq

namespace Job

/-- The operation as the store sees it. -/
def program (w : WatchList) : Job → Program (Except Failure JobReply)
  | .list o => Except.map JobReply.list <$> o.program w
  | .date c => Except.map JobReply.date <$> c.program w

/-- Additions and removals hold the lock of their list. -/
def guard (w : WatchList) : Job → Option WatchList
  | .list o => if o.isWrite then some w else none
  | .date _ => none

theorem within_rest (w : WatchList) (o : Operation) (ms : List Movie) :
    (o.rest w ms).Within fun key => ∃ item : Item, key = item.key w.space := by
  unfold Operation.rest
  split
  · exact .call ⟨.watchList, rfl⟩ fun _ => .done _
  · exact .done _

theorem within_list (w : WatchList) (o : Operation) :
    (o.program w).Within fun key => ∃ item : Item, key = item.key w.space := by
  rw [Operation.program_eq]
  refine .call ⟨.watchList, rfl⟩ fun r => ?_
  unfold Operation.next
  split
  · exact within_rest w o _
  · split
    · exact within_rest w o []
    · exact .done _

theorem within_date (w : WatchList) (c : DateCall) :
    (c.program w).Within fun key => ∃ item : Item, key = item.key w.space := by
  have hreadBack (now : Instant) : (DateCall.readBack w.dateKey now).Within
      fun key => ∃ item : Item, key = item.key w.space :=
    .call ⟨.accountDate, rfl⟩ fun _ => .done _
  rw [DateCall.program_eq]
  cases c with
  | record date => exact .call ⟨.accountDate, rfl⟩ fun _ => .done _
  | created now =>
      refine .call ⟨.accountDate, rfl⟩ fun r => ?_
      split
      · refine .call ⟨.accountDate, rfl⟩ fun r => ?_
        split
        · exact hreadBack now
        · exact .done _
      · exact .done _
      · exact .done _

theorem within_program (w : WatchList) (j : Job) :
    (j.program w).Within fun key => ∃ item : Item, key = item.key w.space := by
  cases j with
  | list o => exact (within_list w o).map _
  | date c => exact (within_date w c).map _

/-! ## Two lists -/

/-- The operations of several lists. -/
def tasks (jobs : List (WatchList × Job)) : List (Task WatchList (Except Failure JobReply)) :=
  jobs.map fun j => ⟨j.2.guard j.1, j.2.program j.1⟩

/-- Operations side by side, behind some moves. -/
def runAs (jobs : List (WatchList × Job)) (s : Contents) (moves : List (Nat × Fate)) :
    System WatchList (Except Failure JobReply) :=
  System.runAs (tasks jobs) (System.start s) moves

/-- The operation is one on this list. -/
def isOf (jobs : List (WatchList × Job)) (w : WatchList) (i : Nat) : Bool :=
  jobs[i]?.any fun j => j.1 = w

/-- The moves of the operations on one list. -/
def movesOf (jobs : List (WatchList × Job)) (w : WatchList) (moves : List (Nat × Fate)) :
    List (Nat × Fate) :=
  moves.filter fun move => isOf jobs w move.1

/-- The operations on a list have the replies, and leave the texts, that they have and
leave if nothing happens to the other list. -/
structure Undisturbed (jobs : List (WatchList × Job)) (s : Contents) (moves : List (Nat × Fate))
    (w : WatchList) : Prop where
  result : ∀ i j, jobs[i]? = some (w, j) →
    (runAs jobs s moves).result? i = (runAs jobs s (movesOf jobs w moves)).result? i
  text : ∀ item : Item, (runAs jobs s moves).store[item.key w.space]? =
    (runAs jobs s (movesOf jobs w moves)).store[item.key w.space]?

/-- What belongs to the operations on one list. -/
def share (jobs : List (WatchList × Job)) (w : WatchList) : Share WatchList where
  tasks := fun i => isOf jobs w i = true
  keys := fun key => ∃ item : Item, key = item.key w.space
  locks := fun l => l = w

variable {jobs : List (WatchList × Job)} {w : WatchList}

theorem isOf_iff {i : Nat} {v : WatchList} {j : Job} (h : jobs[i]? = some (v, j)) :
    isOf jobs w i = true ↔ v = w := by
  rw [isOf, h, Option.any_some, decide_eq_true_eq]

theorem guard_eq_some {v l : WatchList} {j : Job} (h : j.guard v = some l) : l = v := by
  cases j with
  | date c => cases h
  | list o =>
      replace h : (if o.isWrite then some v else none) = some l := h
      split at h
      · injection h with h
        exact h.symm
      · cases h

theorem apart_share (h : ∀ j ∈ jobs, j.1 ≠ w → j.1.spaceName ≠ w.spaceName) :
    (share jobs w).Apart (tasks jobs) where
  within := by
    intro i t htask
    rw [tasks, List.getElem?_map, Option.map_eq_some_iff] at htask
    obtain ⟨⟨v, j⟩, hjob, rfl⟩ := htask
    refine (within_program v j).mono ?_
    rintro key ⟨item, rfl⟩
    show (∃ item' : Item, item.key v.space = item'.key w.space) ↔ isOf jobs w i = true
    rw [isOf_iff hjob]
    constructor
    · rintro ⟨item', hkey⟩
      by_contra hvw
      exact h (v, j) (List.mem_of_getElem? hjob) hvw (Item.key_inj hkey).2
    · rintro rfl
      exact ⟨item, rfl⟩
  guard := by
    intro i t l htask hguard
    rw [tasks, List.getElem?_map, Option.map_eq_some_iff] at htask
    obtain ⟨⟨v, j⟩, hjob, rfl⟩ := htask
    show l = w ↔ isOf jobs w i = true
    rw [isOf_iff hjob, guard_eq_some hguard]

theorem undisturbed (h : ∀ j ∈ jobs, j.1 ≠ w → j.1.spaceName ≠ w.spaceName) (s : Contents)
    (moves : List (Nat × Fate)) : Undisturbed jobs s moves w := by
  have halike := System.alike_runAs (apart_share h) (isOf jobs w) (fun _ => Iff.rfl)
    (System.confined_start _ s) (System.Alike.refl _ _) moves
  refine ⟨?_, fun item => halike.store _ ⟨item, rfl⟩⟩
  intro i j hjob
  have hphase := halike.phase i ((isOf_iff hjob).mpr rfl)
  show (System.runAs (tasks jobs) (System.start s) moves).result? i = _
  unfold System.result?
  rw [hphase]
  rfl

end Job

theorem nodup_keys {a b : WatchList} (h : a.spaceName ≠ b.spaceName) :
    [a.listKey, a.dateKey, b.listKey, b.dateKey].Nodup := by
  have hitem (w : WatchList) : w.listKey ≠ w.dateKey := fun hkey =>
    absurd (Item.key_inj hkey).1 nofun
  have hspace (i j : Item) : i.key a.space ≠ j.key b.space := fun hkey => h (Item.key_inj hkey).2
  simp only [List.nodup_cons, List.mem_cons, List.not_mem_nil, or_false, not_or, not_false_eq_true,
    List.nodup_nil, and_true]
  exact ⟨⟨hitem a, hspace _ _, hspace _ _⟩, ⟨hspace _ _, hspace _ _⟩, hitem b⟩

/-- **Lists in different namespaces do not disturb each other.**  Their keys are four
different keys, and however the store calls of any operations on the two interleave, and
whichever of these calls fail, the operations on each list have the replies that they
have if those on the other one never happen. -/
theorem namespaces_apart {a b : WatchList} (h : a.spaceName ≠ b.spaceName)
    {jobs : List (WatchList × Job)} (hjobs : ∀ j ∈ jobs, j.1 = a ∨ j.1 = b) (s : Contents)
    (moves : List (Nat × Fate)) :
    [a.listKey, a.dateKey, b.listKey, b.dateKey].Nodup ∧
      Job.Undisturbed jobs s moves a ∧ Job.Undisturbed jobs s moves b := by
  refine ⟨nodup_keys h, Job.undisturbed ?_ s moves, Job.undisturbed ?_ s moves⟩
  · intro j hj hja
    rw [(hjobs j hj).resolve_left hja]
    exact h.symm
  · intro j hj hjb
    rw [(hjobs j hj).resolve_right hjb]
    exact h

/-- A movie is added to a list whose namespace is a key of the other list; that one is
listed in between, and asked at `now` for the date of its account. -/
def neighbours (now : Instant) : List (WatchList × Job) :=
  [(⟨some "ana:userMovieList"⟩, .list (.add (.bare 949 "Heat (1995)" ["Crime"]))),
    (⟨some "ana"⟩, .list .entries), (⟨some "ana"⟩, .date (.created now))]

/-- The addition is carried out without an answer, and the listing does not notice. -/
theorem namespaces_apart_neighbours :
    spaceName ⟨some "ana:userMovieList"⟩ ≠ spaceName ⟨some "ana"⟩ ∧
      (∀ j ∈ neighbours (.ofLocal 736329 0 250000 0),
        j.1 = ⟨some "ana:userMovieList"⟩ ∨ j.1 = ⟨some "ana"⟩) ∧
      (Job.runAs (neighbours (.ofLocal 736329 0 250000 0)) ∅ [(0, .answered), (1, .answered),
        (2, .answered), (0, .answered), (2, .answered), (0, .lost (.store "connection reset")),
        (1, .answered), (1, .answered)]).result? 1 =
      (Job.runAs (neighbours (.ofLocal 736329 0 250000 0)) ∅ [(1, .answered), (2, .answered),
        (2, .answered), (1, .answered), (1, .answered)]).result? 1 := by
  have hspace : spaceName ⟨some "ana:userMovieList"⟩ ≠ spaceName ⟨some "ana"⟩ := by decide +kernel
  have hjobs : ∀ j ∈ neighbours (.ofLocal 736329 0 250000 0),
      j.1 = ⟨some "ana:userMovieList"⟩ ∨ j.1 = ⟨some "ana"⟩ := by
    intro j hj
    simp only [neighbours, List.mem_cons, List.not_mem_nil, or_false] at hj
    rcases hj with rfl | rfl | rfl
    · exact Or.inl rfl
    · exact Or.inr rfl
    · exact Or.inr rfl
  obtain ⟨-, -, hana⟩ := namespaces_apart hspace hjobs ∅ [(0, .answered), (1, .answered),
    (2, .answered), (0, .answered), (2, .answered), (0, .lost (.store "connection reset")),
    (1, .answered), (1, .answered)]
  exact ⟨hspace, hjobs, hana.result 1 _ rfl⟩

end Matinee.WatchList
