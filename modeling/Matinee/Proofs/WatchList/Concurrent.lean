/-
# `Matinee.Proofs.WatchList.Concurrent` — calls on one list at the same time

Additions and removals hold the lock of the list from before they read until after
they have written; the other calls take no lock.  So the calls keep to the lock,
and however their steps interleave they have the replies and the effect of the
writes one after the other, in the order in which these took the lock (`Serial`).

What holds of operations one after the other holds of calls at the same time, then:
an id that an addition has stored stays until it is removed (`Remembers`).
-/
import Matinee.Proofs.Store.Serial
import Matinee.Proofs.WatchList.Sequential

namespace Matinee.WatchList.Operation

open Matinee.Store (Call Contents Program System Task)

/-! ## The discipline -/

/-- The calls of some operations; writes take the lock of the list. -/
def tasks (w : WatchList) (os : List Operation) : List (Task Unit (Except Failure Reply)) :=
  os.map fun o => ⟨if o.isWrite then some () else none, o.program w⟩

theorem getElem?_tasks (w : WatchList) (os : List Operation) (i : Nat) :
    (tasks w os)[i]? = os[i]?.map fun o => ⟨if o.isWrite then some () else none, o.program w⟩ :=
  List.getElem?_map

theorem rest_changesLast (w : WatchList) (o : Operation) (ms : List Movie) :
    (o.rest w ms).ChangesLast := by
  unfold rest
  split
  · exact .last fun _ => ⟨_, rfl⟩
  · exact .done _

theorem rest_of_not_isWrite {o : Operation} (h : o.isWrite = false) (w : WatchList)
    (ms : List Movie) : ∃ a, o.rest w ms = .done a := by
  cases o with
  | add m => cases h
  | remove id => cases h
  | contains id => exact ⟨_, rfl⟩
  | entries => exact ⟨_, rfl⟩

/-- Behind the text of the list there are the rest for some list, and failure. -/
theorem next_cases (w : WatchList) (o : Operation) (r : Except Failure (Option String)) :
    (∃ ms, o.next w r = o.rest w ms) ∨ ∃ f, o.next w r = .done (.error f) := by
  unfold next
  split
  · exact Or.inl ⟨_, rfl⟩
  · split
    · exact Or.inl ⟨_, rfl⟩
    · exact Or.inr ⟨_, rfl⟩

theorem keepsTo_tasks (w : WatchList) (os : List Operation) : ∀ t ∈ tasks w os, t.KeepsTo () := by
  intro t ht
  obtain ⟨o, -, rfl⟩ := List.mem_map.mp ht
  rw [Task.KeepsTo, program_eq]
  cases hwrite : o.isWrite with
  | true =>
      refine Or.inl ⟨rfl, .read (Call.isRead_get _) fun r => ?_⟩
      rcases next_cases w o r with ⟨ms, hnext⟩ | ⟨f, hnext⟩
      · exact hnext ▸ rest_changesLast w o ms
      · exact hnext ▸ .done _
  | false =>
      refine Or.inr ⟨rfl, .once (Call.isRead_get _) fun r => ?_⟩
      rcases next_cases w o r with ⟨ms, hnext⟩ | ⟨f, hnext⟩
      · exact hnext ▸ rest_of_not_isWrite hwrite w ms
      · exact ⟨_, hnext⟩

/-! ## Operations at some positions -/

section Positions

variable {w : WatchList} {os : List Operation} {s : Contents} {is : List Nat}

/-- The store behind the operations at some positions, one after the other. -/
def after (w : WatchList) (os : List Operation) (s : Contents) (is : List Nat) : Contents :=
  (serveAll w (is.filterMap (os[·]?)) s).2

theorem programsAt_tasks (w : WatchList) (os : List Operation) (is : List Nat) :
    Store.programsAt (tasks w os) is = (is.filterMap (os[·]?)).map (·.program w) := by
  rw [Store.programsAt, List.map_filterMap]
  refine List.filterMap_congr fun i _ => ?_
  rw [getElem?_tasks, Option.map_map]
  rfl

theorem storeAfter_tasks (w : WatchList) (os : List Operation) (s : Contents) (is : List Nat) :
    Store.storeAfter (tasks w os) s is = after w os s is := by
  rw [Store.storeAfter, programsAt_tasks]
  rfl

theorem after_concat {i : Nat} {o : Operation} (h : os[i]? = some o) :
    after w os s (is ++ [i]) = (o.serve w (after w os s is)).2 := by
  have htask : (tasks w os)[i]? = some ⟨if o.isWrite then some () else none, o.program w⟩ := by
    rw [getElem?_tasks, h]
    rfl
  rw [← storeAfter_tasks, Store.storeAfter_concat htask, storeAfter_tasks]
  rfl

/-- An id that is stored stays, or one of the operations that follow removes it. -/
theorem Holds.after_append {id : UInt64} {back : List Nat} (h : Holds w id (after w os s is))
    (hback : ∀ j ∈ back, ∃ o, os[j]? = some o) :
    Holds w id (after w os s (is ++ back)) ∨
      ∃ front j rest, back = front ++ j :: rest ∧ os[j]? = some (.remove id) ∧
        ((remove id).serve w (after w os s (is ++ front))).1 = .ok (.flag true) := by
  induction back generalizing is with
  | nil => exact Or.inl (by rwa [List.append_nil])
  | cons j back ih =>
      obtain ⟨⟨o, ho⟩, hback⟩ := List.forall_mem_cons.mp hback
      rcases h.serve (o := o) with hholds | ⟨rfl, hreply⟩
      · rw [← after_concat ho] at hholds
        rw [← List.singleton_append, ← List.append_assoc]
        rcases ih hholds hback with hholds | ⟨front, k, rest, rfl, hk, hreply⟩
        · exact Or.inl hholds
        · refine Or.inr ⟨j :: front, k, rest, rfl, hk, ?_⟩
          rwa [List.append_assoc, List.singleton_append] at hreply
      · exact Or.inr ⟨[], j, back, rfl, ho, by rwa [List.append_nil]⟩

end Positions

/-! ## Runs -/

/-- The calls behind a schedule. -/
def calls (w : WatchList) (os : List Operation) (s : Contents) (schedule : List Nat) :
    System Unit (Except Failure Reply) :=
  System.run (tasks w os) (System.start s) schedule

/-- What the calls have done so far is what the writes do one after the other, in the
order of the lock. -/
structure Serial (w : WatchList) (os : List Operation) (s : Contents)
    (S : System Unit (Except Failure Reply)) : Prop where
  nodup : S.order.Nodup
  mem_order_iff : ∀ i, i ∈ S.order ↔ S.phase i ≠ .waiting ∧ ∃ o, os[i]? = some o ∧ o.isWrite = true
  landed : S.landed <+: S.order
  store : S.store = after w os s S.landed
  reply : ∀ front i back o r, S.order = front ++ i :: back → os[i]? = some o →
    S.result? i = some r → r = (o.serve w (after w os s front)).1
  free : S.holder () = none → S.landed = S.order ∧
    S.order.map S.result? = (serveAll w (S.order.filterMap (os[·]?)) s).1.map some

/-- An id that an addition has stored stays until it is removed. -/
structure Remembers (w : WatchList) (os : List Operation)
    (S : System Unit (Except Failure Reply)) : Prop where
  stays : ∀ i m, os[i]? = some (.add m) → S.result? i = some (.ok (.flag true)) →
    S.holder () = none → Holds w m.id S.store ∨
      ∃ j, os[j]? = some (.remove m.id) ∧ S.result? j = some (.ok (.flag true)) ∧
        [i, j].Sublist S.order
  between : ∀ i j m m', i ≠ j → os[i]? = some (.add m) → os[j]? = some (.add m') → m.id = m'.id →
    S.result? i = some (.ok (.flag true)) → S.result? j = some (.ok (.flag true)) →
      ∃ k, os[k]? = some (.remove m.id) ∧ S.result? k = some (.ok (.flag true)) ∧
        ([i, k, j].Sublist S.order ∨ [j, k, i].Sublist S.order)

section Runs

variable {w : WatchList} {os : List Operation} {s : Contents} {since : Nat → List Nat}
variable {S : System Unit (Except Failure Reply)}

theorem serial_of_kept (h : System.Kept (tasks w os) () s since S) : Serial w os s S where
  nodup := h.nodup
  mem_order_iff := fun i => by
    constructor
    · intro hi
      have hbegun : S.phase i ≠ .waiting := fun hwaiting => h.not_mem_of_waiting hwaiting hi
      obtain ⟨t, htask, hguard⟩ := h.begun i hbegun
      rw [getElem?_tasks] at htask
      obtain ⟨o, ho, rfl⟩ := Option.map_eq_some_iff.mp htask
      refine ⟨hbegun, o, ho, ?_⟩
      by_contra hread
      have hnone := hguard.mpr hi
      rw [if_neg hread] at hnone
      cases hnone
    · rintro ⟨hbegun, o, ho, hwrite⟩
      obtain ⟨t, htask, hguard⟩ := h.begun i hbegun
      rw [getElem?_tasks, ho] at htask
      injection htask with htask
      refine hguard.mp ?_
      rw [← htask]
      exact if_pos hwrite
  landed := h.landed_prefix
  store := by rw [h.store_landed, storeAfter_tasks]
  reply := fun front i back o r horder ho hr => by
    obtain ⟨t, htask, hreply⟩ := h.reply horder hr
    rw [getElem?_tasks, ho] at htask
    injection htask with htask
    rw [hreply, storeAfter_tasks, ← htask]
    rfl
  free := fun hholder => by
    have hfree := h.free_of_holder hholder
    refine ⟨hfree.landed, hfree.settled.results.trans ?_⟩
    rw [Store.repliesOf, programsAt_tasks]
    rfl

theorem Serial.mem_order (h : Serial w os s S) {i : Nat} {o : Operation} (ho : os[i]? = some o)
    (hwrite : o.isWrite = true) {r : Except Failure Reply} (hr : S.result? i = some r) :
    i ∈ S.order := by
  refine (h.mem_order_iff i).mpr ⟨fun hwaiting => ?_, o, ho, hwrite⟩
  rw [System.result?_eq_some_iff, hwaiting] at hr
  cases hr

section Ids

variable (h : System.Kept (tasks w os) () s since S)

include h

theorem result_of_reply {front back : List Nat} {i : Nat} {o : Operation}
    {r : Except Failure Reply} (horder : S.order = front ++ i :: back) (ho : os[i]? = some o)
    (hreply : (o.serve w (after w os s front)).1 = r) (hreturned : ∃ r, S.result? i = some r) :
    S.result? i = some r := by
  obtain ⟨r', hr'⟩ := hreturned
  rw [hr', (serial_of_kept h).reply front i back o r' horder ho hr', hreply]

theorem holds_of_result {front back : List Nat} {i : Nat} {m : Movie}
    (horder : S.order = front ++ i :: back) (hi : os[i]? = some (.add m))
    (hr : S.result? i = some (.ok (.flag true))) : Holds w m.id (after w os s (front ++ [i])) := by
  have hreply := (serial_of_kept h).reply front i back _ _ horder hi hr
  rw [after_concat hi]
  exact holds_of_added hreply.symm

theorem exists_of_mem_order {j : Nat} (hj : j ∈ S.order) : ∃ o, os[j]? = some o :=
  let ⟨_, o, ho, _⟩ := ((serial_of_kept h).mem_order_iff j).mp hj
  ⟨o, ho⟩

/-- Between two additions of an id that succeed stands a removal. -/
theorem removed_between {front middle back : List Nat} {i j : Nat} {m m' : Movie}
    (horder : S.order = front ++ i :: (middle ++ j :: back)) (hi : os[i]? = some (.add m))
    (hj : os[j]? = some (.add m')) (hid : m.id = m'.id)
    (hri : S.result? i = some (.ok (.flag true))) (hrj : S.result? j = some (.ok (.flag true))) :
    ∃ k, os[k]? = some (.remove m.id) ∧ S.result? k = some (.ok (.flag true)) ∧
      [i, k, j].Sublist S.order := by
  have hholds := holds_of_result h horder hi hri
  have hmiddle : ∀ k ∈ middle, ∃ o, os[k]? = some o := fun k hk =>
    exists_of_mem_order h (by simp [horder, hk])
  rcases hholds.after_append hmiddle with hholds | ⟨f, k, rest, rfl, hk, hreply⟩
  · have hplace : S.order = (front ++ [i] ++ middle) ++ j :: back := by simp [horder]
    have hreply := (serial_of_kept h).reply _ j back _ _ hplace hj hrj
    rw [hid] at hholds
    exact absurd hreply.symm hholds.not_added
  · have hplace : S.order = (front ++ [i] ++ f) ++ k :: (rest ++ j :: back) := by simp [horder]
    have hreturned := h.returned_before hplace (by simp)
    have hpair : [k, j].Sublist (f ++ k :: rest ++ j :: back) := by
      rw [List.append_assoc]
      exact (List.Sublist.cons_cons k (List.singleton_sublist.mpr (by simp))).trans
        (List.sublist_append_right f _)
    refine ⟨k, hk, result_of_reply h hplace hk hreply hreturned, ?_⟩
    rw [horder]
    exact (hpair.cons_cons i).trans (List.sublist_append_right front _)

theorem remembers_of_kept : Remembers w os S where
  stays := fun i m hi hr hholder => by
    have hserial := serial_of_kept h
    obtain ⟨front, back, horder⟩ := List.append_of_mem (hserial.mem_order hi rfl hr)
    have hholds := holds_of_result h horder hi hr
    have hback : ∀ k ∈ back, ∃ o, os[k]? = some o := fun k hk =>
      exists_of_mem_order h (by simp [horder, hk])
    rcases hholds.after_append hback with hholds | ⟨f, j, rest, rfl, hj, hreply⟩
    · left
      rw [hserial.store, (hserial.free hholder).1, horder]
      simpa using hholds
    · right
      have hplace : S.order = (front ++ [i] ++ f) ++ j :: rest := by simp [horder]
      obtain ⟨a, ha⟩ := (h.free_of_holder hholder).settled.returned (by simp [hplace] : j ∈ S.order)
      refine ⟨j, hj, result_of_reply h hplace hj hreply ⟨a, System.result?_eq_some_iff.mpr ha⟩, ?_⟩
      have hback : [j].Sublist (f ++ j :: rest) := List.singleton_sublist.mpr (by simp)
      rw [horder]
      exact (hback.cons_cons i).trans (List.sublist_append_right front _)
  between := fun i j m m' hij hi hj hid hri hrj => by
    have hserial := serial_of_kept h
    obtain ⟨front, back, horder⟩ := List.append_of_mem (hserial.mem_order hi rfl hri)
    have hmem : j ∈ front ++ i :: back := horder ▸ hserial.mem_order hj rfl hrj
    rcases List.mem_append.mp hmem with hmem | hmem
    · obtain ⟨front, middle, rfl⟩ := List.append_of_mem hmem
      have horder : S.order = front ++ j :: (middle ++ i :: back) := by simp [horder]
      obtain ⟨k, hk, hrk, hsub⟩ := removed_between h horder hj hi hid.symm hrj hri
      exact ⟨k, hid ▸ hk, hrk, Or.inr hsub⟩
    · obtain ⟨middle, back, rfl⟩ :=
        List.append_of_mem ((List.mem_cons.mp hmem).resolve_left (Ne.symm hij))
      obtain ⟨k, hk, hrk, hsub⟩ := removed_between h horder hi hj hid hri hrj
      exact ⟨k, hk, hrk, Or.inl hsub⟩

end Ids

end Runs

/-- Calls at the same time are writes one after the other, in the order of the lock,
with the reads between two of them.  No id is lost and none is added twice, and
whatever has happened, all can return. -/
theorem calls_in_lock_order (w : WatchList) (os : List Operation) (s : Contents)
    (schedule : List Nat) :
    Serial w os s (calls w os s schedule) ∧
      (∀ early late i o r, schedule = early ++ late → os[i]? = some o → o.isWrite = false →
        (calls w os s early).phase i = .waiting → (calls w os s schedule).result? i = some r →
          ∃ front, (calls w os s early).landed <+: front ∧
            front <+: (calls w os s schedule).landed ∧ r = (o.serve w (after w os s front)).1) ∧
      Remembers w os (calls w os s schedule) ∧
      (∃ rest, ∀ i < os.length, ∃ r, (calls w os s (schedule ++ rest)).result? i = some r) := by
  have htasks := keepsTo_tasks w os
  have hkept := System.kept_run htasks s schedule
  refine ⟨serial_of_kept hkept, ?_, remembers_of_kept hkept, ?_⟩
  · rintro early late i o r rfl ho hread hwaiting hr
    have htask : (tasks w os)[i]? = some ⟨none, o.program w⟩ := by
      rw [getElem?_tasks, ho, Option.map_some, if_neg (by rw [hread]; exact nofun)]
    obtain ⟨front, hearly, hlate, hreply⟩ :=
      System.found_between htasks s htask rfl hwaiting hr
    refine ⟨front, hearly, hlate, ?_⟩
    rw [hreply, storeAfter_tasks]
    rfl
  · obtain ⟨rest, hrest⟩ := hkept.exists_all_returned htasks
    refine ⟨rest, fun i hi => ?_⟩
    rw [calls, System.run_append]
    exact hrest i (by rwa [tasks, List.length_map])

end Matinee.WatchList.Operation
