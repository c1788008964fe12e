/-
# `Matinee.Proofs.WatchList.Sequential` — the stored list is an ordered list

An operation reads one text, and writes at most one.  On an ordered list it is a
single step (`Operation.onList`), and as long as what is stored can be written
and read without loss, a run of operations on the store gives the replies of the
run on the list.

Loss has two sources.  Reading cleans the tags of a movie, so those that are
added must be clean; and a rating must read back as the number it was.  The ids
survive both, so what is told about them holds of all movies.
-/
import Matinee.Proofs.Movie.Clean
import Matinee.Proofs.Store.Runs
import Matinee.WatchList

namespace Matinee.WatchList

open Matinee.Store (Call Contents Program)

/-! ## Operations on a list -/

/-- What can be asked of a watch-list. -/
inductive Operation where
  | add (m : Movie)
  | remove (id : UInt64)
  | contains (id : UInt64)
  | entries

inductive Reply where
  | flag (b : Bool)
  | movies (ms : List Movie)
deriving DecidableEq

namespace Operation

/-- The operation as the store sees it. -/
def program (w : WatchList) : Operation → Program (Except Failure Reply)
  | .add m => (Reply.flag <$> w.add m : Store.Action Reply)
  | .remove id => (Reply.flag <$> w.remove id : Store.Action Reply)
  | .contains id => (Reply.flag <$> w.contains id : Store.Action Reply)
  | .entries => (Reply.movies <$> w.entries : Store.Action Reply)

/-- The operation on an ordered list: the reply, and the list behind it. -/
def onList : Operation → List Movie → Reply × List Movie
  | .add m, ms =>
    if ∃ x ∈ ms, x.id = m.id then (.flag false, ms) else (.flag true, ms ++ [m])
  | .remove id, ms => (.flag (decide (∃ x ∈ ms, x.id = id)), ms.filter (·.id ≠ id))
  | .contains id, ms => (.flag (decide (∃ x ∈ ms, x.id = id)), ms)
  | .entries, ms => (.movies ms, ms)

/-- The movie that the operation may put in. -/
def added : Operation → Option Movie
  | .add m => some m
  | _ => none

/-- Operations that hold the lock of the list. -/
def isWrite : Operation → Bool
  | .add _ | .remove _ => true
  | .contains _ | .entries => false

/-- The list that a write stores, if it stores one. -/
def edit : Operation → List Movie → Option (List Movie)
  | .add m, ms => if ms.any (·.id == m.id) then none else some (ms ++ [m])
  | .remove id, ms =>
    let kept := ms.filter (·.id != id)
    if kept.length == ms.length then none else some kept
  | .contains _, _ | .entries, _ => none

theorem any_id (id : UInt64) (ms : List Movie) :
    ms.any (·.id == id) = decide (∃ x ∈ ms, x.id = id) := by
  rw [Bool.eq_iff_iff]
  simp

theorem filter_id (id : UInt64) (ms : List Movie) :
    ms.filter (·.id != id) = ms.filter (·.id ≠ id) := by
  refine List.filter_congr fun m _ => ?_
  rw [Bool.eq_iff_iff]
  simp

theorem filter_id_eq_self_iff {id : UInt64} {ms : List Movie} :
    ms.filter (·.id ≠ id) = ms ↔ ¬ ∃ x ∈ ms, x.id = id := by
  simp [List.filter_eq_self]

theorem length_filter_id_iff {id : UInt64} {ms : List Movie} :
    (ms.filter (·.id ≠ id)).length = ms.length ↔ ¬ ∃ x ∈ ms, x.id = id := by
  rw [← filter_id_eq_self_iff]
  constructor
  · exact fun h => (List.filter_sublist (l := ms)).eq_of_length h
  · exact fun h => congrArg List.length h

theorem onList_of_edit {o : Operation} {ms ms' : List Movie} (h : o.edit ms = some ms') :
    o.onList ms = (.flag true, ms') := by
  cases o with
  | add m =>
      simp only [edit, any_id, decide_eq_true_eq] at h
      split at h
      · cases h
      · rename_i hnew
        injection h with h
        rw [onList, if_neg hnew, h]
  | remove id =>
      simp only [edit, filter_id, beq_iff_eq, length_filter_id_iff] at h
      split at h
      · cases h
      · rename_i hsome
        injection h with h
        rw [onList, decide_eq_true (not_not.mp hsome), h]
  | contains id => cases h
  | entries => cases h

theorem onList_of_not_edit {o : Operation} {ms : List Movie} (h : o.edit ms = none) :
    (o.onList ms).2 = ms := by
  cases o with
  | add m =>
      simp only [edit, any_id, decide_eq_true_eq] at h
      split at h
      · rename_i hsome
        rw [onList, if_pos hsome]
      · cases h
  | remove id =>
      simp only [edit, filter_id, beq_iff_eq] at h
      split at h
      · rename_i hlength
        exact (filter_id_eq_self_iff.mpr (length_filter_id_iff.mp hlength))
      · cases h
  | contains id => rfl
  | entries => rfl

theorem mem_onList {o : Operation} {ms : List Movie} {m : Movie} (h : m ∈ (o.onList ms).2) :
    m ∈ ms ∨ m ∈ o.added := by
  cases o with
  | add m' =>
      rw [onList] at h
      split at h
      · exact Or.inl h
      · rcases List.mem_append.mp h with h | h
        · exact Or.inl h
        · exact Or.inr (congrArg some (List.mem_singleton.mp h).symm)
  | remove id => exact Or.inl (List.mem_of_mem_filter h)
  | contains id => exact Or.inl h
  | entries => exact Or.inl h

theorem nodup_onList {o : Operation} {ms : List Movie} (h : (ms.map Movie.id).Nodup) :
    ((o.onList ms).2.map Movie.id).Nodup := by
  cases o with
  | add m =>
      rw [onList]
      split
      · exact h
      · rename_i hnew
        rw [List.map_append, List.nodup_append]
        refine ⟨h, List.pairwise_singleton _ _, fun a ha b hb => ?_⟩
        obtain ⟨x, hx, rfl⟩ := List.mem_map.mp ha
        rw [List.mem_singleton.mp hb]
        exact fun heq => hnew ⟨x, hx, heq⟩
  | remove id => exact h.sublist (List.filter_sublist.map _)
  | contains id => exact h
  | entries => exact h

/-! ## Operations on a store -/

/-- What is left to do with the movies at hand. -/
def rest (w : WatchList) (o : Operation) (ms : List Movie) : Program (Except Failure Reply) :=
  match o.edit ms with
  | some ms' => .call (.set w.listKey (write ms')) fun r => .done (r.map fun _ => .flag true)
  | none => .done (.ok (o.onList ms).1)

/-- Readers take a list that cannot be read for an empty one. -/
def forgives : Operation → Failure → Bool
  | .contains _, .internal _ | .entries, .internal _ => true
  | _, _ => false

/-- What is left to do behind the answer of the store. -/
def next (w : WatchList) (o : Operation) (r : Except Failure (Option String)) :
    Program (Except Failure Reply) :=
  match r.bind read with
  | .ok ms => o.rest w ms
  | .error f => if o.forgives f then o.rest w [] else .done (.error f)

theorem stored_eq (w : WatchList) :
    (w.stored : Program (Except Failure (List Movie))) =
      .call (.get w.listKey) fun r => .done (r.bind read) := by
  refine congrArg (Program.call (.get w.listKey)) (funext fun r => ?_)
  cases r with
  | error f => rfl
  | ok text =>
      unfold ExceptT.bindCont
      cases hread : read text <;> simp only [Program.bind, Except.bind, hread] <;> rfl

theorem entries_eq (w : WatchList) :
    (w.entries : Program (Except Failure (List Movie))) =
      .call (.get w.listKey) fun r => .done (match r.bind read with
        | .ok ms => .ok ms
        | .error f => if Operation.entries.forgives f then .ok [] else .error f) := by
  rw [WatchList.entries, stored_eq]
  refine congrArg (Program.call (.get w.listKey)) (funext fun r => ?_)
  simp only [Program.bind]
  cases r.bind read with
  | error f => cases f <;> rfl
  | ok ms => rfl

theorem save_eq (w : WatchList) (ms : List Movie) :
    ((Reply.flag <$> (do w.save ms; return true) : Store.Action Reply) :
      Program (Except Failure Reply)) =
        .call (.set w.listKey (write ms)) fun r => .done (r.map fun _ => .flag true) := by
  refine congrArg (Program.call (.set w.listKey (write ms))) (funext fun r => ?_)
  cases r <;> rfl

theorem program_eq (w : WatchList) (o : Operation) :
    o.program w = .call (.get w.listKey) (o.next w) := by
  cases o with
  | add m =>
      rw [program, WatchList.add, stored_eq]
      refine congrArg (Program.call (.get w.listKey)) (funext fun r => ?_)
      simp only [Program.bind, next]
      cases r.bind read with
      | error f => rfl
      | ok ms =>
          simp only [rest, edit, onList, ExceptT.bindCont, any_id, decide_eq_true_eq]
          split
          · rfl
          · exact save_eq w _
  | remove id =>
      rw [program, WatchList.remove, stored_eq]
      refine congrArg (Program.call (.get w.listKey)) (funext fun r => ?_)
      simp only [Program.bind, next]
      cases r.bind read with
      | error f => rfl
      | ok ms =>
          simp only [rest, edit, onList, ExceptT.bindCont, filter_id, beq_iff_eq,
            length_filter_id_iff]
          split
          · rename_i hnone
            rw [decide_eq_false hnone]
            rfl
          · exact save_eq w _
  | contains id =>
      rw [program, WatchList.contains, entries_eq]
      refine congrArg (Program.call (.get w.listKey)) (funext fun r => ?_)
      simp only [Program.bind, next]
      cases r.bind read with
      | error f => cases f <;> rfl
      | ok ms =>
          simp only [rest, edit, onList, ExceptT.bindCont, any_id]
          rfl
  | entries =>
      rw [program, entries_eq]
      refine congrArg (Program.call (.get w.listKey)) (funext fun r => ?_)
      simp only [Program.bind, next]
      cases r.bind read with
      | error f => cases f <;> rfl
      | ok ms => rfl

theorem next_of_read {w : WatchList} {o : Operation} {text : Option String} {ms : List Movie}
    (h : read text = .ok ms) : o.next w (.ok text) = o.rest w ms := by
  simp only [next, Except.bind, h]

/-- The operation on a store whose calls do not fail. -/
def serve (w : WatchList) (o : Operation) (s : Contents) : Except Failure Reply × Contents :=
  (o.program w).alone s

theorem serve_eq_next (w : WatchList) (o : Operation) (s : Contents) :
    o.serve w s = (o.next w (.ok s[w.listKey]?)).alone s := by
  rw [serve, program_eq]
  rfl

/-- The store behind an operation. -/
def restStore (w : WatchList) (o : Operation) (ms : List Movie) (s : Contents) : Contents :=
  match o.edit ms with
  | some ms' => s.insert w.listKey (write ms')
  | none => s

theorem serve_eq {w : WatchList} {s : Contents} {ms : List Movie}
    (h : read s[w.listKey]? = .ok ms) (o : Operation) :
    o.serve w s = (.ok (o.onList ms).1, o.restStore w ms s) := by
  rw [serve_eq_next, next_of_read h, rest, restStore]
  cases hedit : o.edit ms with
  | none => rfl
  | some ms' =>
      rw [onList_of_edit hedit]
      rfl

/-- A text that cannot be read stays, and no write succeeds. -/
theorem serve_of_unreadable {w : WatchList} {s : Contents} {f : Failure}
    (h : read s[w.listKey]? = .error f) (o : Operation) :
    (o.serve w s).2 = s ∧ (o.isWrite = true → (o.serve w s).1 = .error f) := by
  have hnext : o.next w (.ok s[w.listKey]?) =
      if o.forgives f then o.rest w [] else .done (.error f) := by
    simp only [next, Except.bind, h]
  rw [serve_eq_next, hnext]
  cases o with
  | add m => exact ⟨rfl, fun _ => rfl⟩
  | remove id => exact ⟨rfl, fun _ => rfl⟩
  | contains id => cases f <;> exact ⟨rfl, nofun⟩
  | entries => cases f <;> exact ⟨rfl, nofun⟩

end Operation

/-- Movies are stored as what is read of them. -/
theorem read_write (ms : List Movie) :
    read (some (write ms)) = .ok (ms.map Movie.reread) := by
  have hlist : Movie.listOfText (write ms) = .ok (ms.map Movie.reread) :=
    Movie.listOfText_compact ms
  rw [read, hlist]

theorem clean_of_read {text : Option String} {ms : List Movie} (h : read text = .ok ms) :
    ∀ m ∈ ms, m.Clean := by
  cases text with
  | none =>
      injection h with h
      exact h ▸ fun _ hm => absurd hm List.not_mem_nil
  | some text =>
      rw [read] at h
      split at h
      · rename_i hlist
        injection h with h
        exact h ▸ Movie.clean_of_listOfText hlist
      · cases h

namespace Operation

/-- Behind an operation the store holds the list that the operation leaves, or what is
read of it if it has been written. -/
theorem read_restStore {w : WatchList} {s : Contents} {ms : List Movie} (o : Operation)
    (h : read s[w.listKey]? = .ok ms) :
    read (o.restStore w ms s)[w.listKey]? = .ok (o.onList ms).2 ∨
      read (o.restStore w ms s)[w.listKey]? = .ok ((o.onList ms).2.map Movie.reread) := by
  rw [restStore]
  cases hedit : o.edit ms with
  | none => exact Or.inl (by rw [h, onList_of_not_edit hedit])
  | some ms' =>
      rw [onList_of_edit hedit, Std.ExtHashMap.getElem?_insert_self]
      exact Or.inr (read_write ms')

/-! ## Runs -/

/-- Operations one after the other: their replies, and the store behind them. -/
def serveAll (w : WatchList) (os : List Operation) (s : Contents) :
    List (Except Failure Reply) × Contents :=
  Store.runAll (os.map (·.program w)) s

theorem serveAll_cons (w : WatchList) (o : Operation) (os : List Operation) (s : Contents) :
    serveAll w (o :: os) s =
      ((o.serve w s).1 :: (serveAll w os (o.serve w s).2).1, (serveAll w os (o.serve w s).2).2) :=
  rfl

/-- The same on an ordered list. -/
def onListAll : List Operation → List Movie → List Reply × List Movie
  | [], ms => ([], ms)
  | o :: os, ms =>
    let (reply, ms') := o.onList ms
    let (replies, ms'') := onListAll os ms'
    (reply :: replies, ms'')

theorem nodup_onListAll {os : List Operation} {ms : List Movie} (h : (ms.map Movie.id).Nodup) :
    ((onListAll os ms).2.map Movie.id).Nodup := by
  induction os generalizing ms with
  | nil => exact h
  | cons o os ih => exact ih (nodup_onList h)

/-- A run on the store answers like the run on the list, and leaves its list. -/
theorem serveAll_eq {w : WatchList} {os : List Operation} {s : Contents} {ms : List Movie}
    (h : read s[w.listKey]? = .ok ms) (hms : ∀ m ∈ ms, m.Clean ∧ m.Rereadable)
    (hadded : ∀ o ∈ os, ∀ m ∈ o.added, m.Clean ∧ m.Rereadable) :
    (serveAll w os s).1 = (onListAll os ms).1.map .ok ∧
      read (serveAll w os s).2[w.listKey]? = .ok (onListAll os ms).2 := by
  induction os generalizing s ms with
  | nil => exact ⟨rfl, h⟩
  | cons o os ih =>
      obtain ⟨ho, hrest⟩ := List.forall_mem_cons.mp hadded
      have hnext : ∀ m ∈ (o.onList ms).2, m.Clean ∧ m.Rereadable := fun m hm =>
        (mem_onList hm).elim (hms m) (ho m)
      have hread := read_restStore o h
      rw [Movie.map_reread hnext, or_self] at hread
      obtain ⟨hreplies, hstore⟩ := ih hread hnext hrest
      simp only [serveAll_cons, onListAll, serve_eq h]
      exact ⟨congrArg (_ :: ·) hreplies, hstore⟩

/-- A watch-list is an ordered list, from whatever list of movies its text holds.
The added movies are clean, and the finite ratings of all of them read back. -/
theorem serves_as_ordered_list (w : WatchList) (s : Contents) (ms : List Movie)
    (os : List Operation) (hstored : read s[w.listKey]? = .ok ms)
    (hclean : ∀ m ∈ os.filterMap added, m.Clean)
    (hnumbers : ∀ m ∈ ms ++ os.filterMap added, m.Rereadable) :
    (serveAll w os s).1 = (onListAll os ms).1.map .ok ∧
      (∀ front, front <+: os →
        (Operation.entries.serve w (serveAll w front s).2).1 =
          .ok (.movies (onListAll front ms).2)) ∧
      ((ms.map Movie.id).Nodup → ∀ front, front <+: os →
        ((onListAll front ms).2.map Movie.id).Nodup) := by
  have hms : ∀ m ∈ ms, m.Clean ∧ m.Rereadable := fun m hm =>
    ⟨clean_of_read hstored m hm, hnumbers m (List.mem_append_left _ hm)⟩
  have hadded : ∀ o ∈ os, ∀ m ∈ o.added, m.Clean ∧ m.Rereadable := fun o ho m hm =>
    have hmem : m ∈ os.filterMap added := List.mem_filterMap.mpr ⟨o, ho, hm⟩
    ⟨hclean m hmem, hnumbers m (List.mem_append_right _ hmem)⟩
  refine ⟨(serveAll_eq hstored hms hadded).1, fun front hfront => ?_, fun hnodup _ _ =>
    nodup_onListAll hnodup⟩
  have hread := (serveAll_eq hstored hms fun o ho => hadded o (hfront.subset ho)).2
  rw [serve_eq hread]
  rfl

/-- A text from elsewhere, with joined tags; the first movie of an id stays. -/
theorem serves_as_ordered_list_joined_tags :
    (serveAll ⟨none⟩
      [.add (Movie.bare 348 "Alien (1979)" []),
        .add { Movie.bare 679 "Aliens" ["Action"] with rating := some 7.9 },
        .remove 348, .contains 348, .entries]
      ((∅ : Contents).insert (listKey ⟨none⟩) ("[\x7b\"movieId\":348,\"title\":\"Alien\"," ++
        "\"genres\":\" Horror | |Science Fiction\",\"rating\":8.5\x7d]"))).1 =
      [.ok (.flag false), .ok (.flag true), .ok (.flag true), .ok (.flag false),
        .ok (.movies [{ Movie.bare 679 "Aliens" ["Action"] with rating := some 7.9 }])] := by
  refine (serves_as_ordered_list _ _
    [{ Movie.bare 348 "Alien" ["Horror", "Science Fiction"] with rating := some 8.5 }] _
    ?_ ?_ ?_).1.trans ?_
  · rw [Std.ExtHashMap.getElem?_insert_self]
    decide +kernel
  · decide +kernel
  · decide +kernel
  · decide +kernel

/-! ## Ids -/

/-- A movie with the id is stored. -/
def Holds (w : WatchList) (id : UInt64) (s : Contents) : Prop :=
  ∃ ms, read s[w.listKey]? = .ok ms ∧ ∃ m ∈ ms, m.id = id

section Ids

variable {w : WatchList} {s : Contents} {o : Operation}

/-- What an operation leaves of a list is read as movies with the same ids. -/
theorem holds_serve {ms : List Movie} (h : read s[w.listKey]? = .ok ms) {m : Movie}
    (hm : m ∈ (o.onList ms).2) : Holds w m.id (o.serve w s).2 := by
  rw [serve_eq h]
  rcases read_restStore o h with hread | hread
  · exact ⟨_, hread, m, hm, rfl⟩
  · exact ⟨_, hread, m.reread, List.mem_map_of_mem hm, rfl⟩

theorem holds_of_added {m : Movie} (hadd : ((add m).serve w s).1 = .ok (.flag true)) :
    Holds w m.id ((add m).serve w s).2 := by
  cases hread : read s[w.listKey]? with
  | error f =>
      rw [(serve_of_unreadable hread (add m)).2 rfl] at hadd
      cases hadd
  | ok ms =>
      refine holds_serve hread ?_
      rw [serve_eq hread] at hadd
      simp only [onList] at hadd ⊢
      split at hadd
      · cases hadd
      · rename_i hnew
        rw [if_neg hnew]
        exact List.mem_append_right _ (List.mem_singleton.mpr rfl)

theorem Holds.not_added {m : Movie} (h : Holds w m.id s) :
    ((add m).serve w s).1 ≠ .ok (.flag true) := by
  obtain ⟨ms, hread, hm⟩ := h
  rw [serve_eq hread, onList, if_pos hm]
  exact nofun

theorem Holds.serve {id : UInt64} (h : Holds w id s) :
    Holds w id (o.serve w s).2 ∨ o = .remove id ∧ (o.serve w s).1 = .ok (.flag true) := by
  obtain ⟨ms, hread, m, hm, rfl⟩ := h
  by_cases hkept : m ∈ (o.onList ms).2
  · exact Or.inl (holds_serve hread hkept)
  · right
    cases o with
    | add m' =>
        refine absurd ?_ hkept
        rw [onList]
        split
        · exact hm
        · exact List.mem_append_left _ hm
    | remove id =>
        obtain rfl : m.id = id := by
          by_contra hne
          exact hkept (List.mem_filter.mpr ⟨hm, decide_eq_true hne⟩)
        refine ⟨rfl, ?_⟩
        rw [serve_eq hread, onList, decide_eq_true ⟨m, hm, rfl⟩]
    | contains id => exact absurd hm hkept
    | entries => exact absurd hm hkept

end Ids

end Operation

end Matinee.WatchList
