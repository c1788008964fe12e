/-
# `Matinee.Proofs.WatchList.StoreFailures` — who is told that the store cannot be read

Every operation begins with the text of the list, so a store that does not answer is met
by all of them at the same point, whatever kind of store it is (`serveBy_eq`).  Those that
write pass its failure on.  Those that read make up for a text that is no list of movies,
and they know it by the kind of its failure, which is `internal`; so they also make up for
a store that fails in that way, and answer as if the list were empty
(`internal_failure_hidden`).  Any other failure they pass on.

No store of this library fails so: one kept in memory does not fail, and one on another
machine fails with the failures of its connection, or with its own (`interpret_ne_internal`).
-/
import Matinee.Proofs.WatchList.Outages
import Matinee.Store.Remote

namespace Matinee.Store

/-- A store of any kind, with a state of its own. -/
abbrev Behaviour (σ : Type) := (c : Call) → StateM σ (Except Failure c.Answer)

/-- A store over a connection that has a state. -/
def Remote.behaviour {σ : Type} (connection : Remote.Connection (StateM σ)) : Behaviour σ :=
  Remote.perform connection

/-- What a server replies is never taken for an internal failure. -/
theorem Remote.interpret_ne_internal (c : Call) (reply : Remote.Reply) (what : String) :
    Remote.interpret c reply ≠ .error (.internal what) := by
  cases c with
  | get key =>
      cases reply with
      | value bytes =>
          rw [Remote.interpret]
          split <;> exact nofun
      | _ => exact nofun
  | set key value => cases reply <;> exact nofun
  | setIfAbsent key value => cases reply <;> exact nofun

theorem Remote.internal_of_behaviour {σ : Type} {connection : Remote.Connection (StateM σ)}
    {c : Call} {s s' : σ} {what : String}
    (h : Remote.behaviour connection c s = (.error (.internal what), s')) :
    connection (Remote.command c) s = (.error (.internal what), s') := by
  have hreply : (connection (Remote.command c) s).1.bind (Remote.interpret c) =
      .error (.internal what) := congrArg Prod.fst h
  have hstate : (connection (Remote.command c) s).2 = s' := congrArg Prod.snd h
  refine Prod.ext ?_ hstate
  cases hanswer : (connection (Remote.command c) s).1 with
  | error f =>
      rw [hanswer] at hreply
      exact congrArg Except.error (Except.error.inj hreply)
  | ok reply =>
      rw [hanswer] at hreply
      exact absurd hreply (Remote.interpret_ne_internal c reply what)

end Matinee.Store

namespace Matinee.WatchList

open Matinee.Store (Behaviour Contents answerUnder)

namespace Operation

/-- The operation on a store of any kind. -/
def serveBy (w : WatchList) {σ : Type} (store : Behaviour σ) (o : Operation) :
    StateM σ (Except Failure Reply) :=
  (o.program w).run store

section

variable {w : WatchList} {σ : Type} {store : Behaviour σ} {s s' : σ}

/-- What comes first is the answer to the one call that all operations begin with. -/
theorem serveBy_eq {got : Except Failure (Option String)}
    (hgot : store (.get w.listKey) s = (got, s')) (o : Operation) :
    o.serveBy w store s = (o.next w got).run store s' := by
  rw [serveBy, program_eq]
  show (o.next w (store (.get w.listKey) s).1).run store (store (.get w.listKey) s).2 = _
  rw [hgot]

theorem forgives_iff {o : Operation} {f : Failure} :
    o.forgives f = true ↔ o.isWrite = false ∧ ∃ what, f = .internal what := by
  constructor
  · intro h
    refine ⟨not_isWrite_of_forgives h, ?_⟩
    cases f with
    | internal what => exact ⟨what, rfl⟩
    | _ => cases o <;> cases h
  · rintro ⟨hread, what, rfl⟩
    cases o with
    | add m => cases hread
    | remove id => cases hread
    | contains id => rfl
    | entries => rfl

theorem serveBy_of_error {f : Failure} (hgot : store (.get w.listKey) s = (.error f, s'))
    {o : Operation} (hpass : o.isWrite = true ∨ ∀ what, f ≠ .internal what) :
    o.serveBy w store s = (.error f, s') := by
  have hforgives : ¬ o.forgives f = true := by
    intro h
    obtain ⟨hread, what, rfl⟩ := forgives_iff.mp h
    rcases hpass with hwrite | hkind
    · rw [hread] at hwrite
      cases hwrite
    · exact hkind what rfl
  rw [serveBy_eq hgot]
  show (if o.forgives f then o.rest w [] else .done (.error f)).run store s' = _
  rw [if_neg hforgives]
  rfl

theorem serveBy_of_internal {what : String}
    (hgot : store (.get w.listKey) s = (.error (.internal what), s')) {o : Operation}
    (hread : o.isWrite = false) : o.serveBy w store s = (.ok (o.onList []).1, s') := by
  rw [serveBy_eq hgot]
  show (if o.forgives (.internal what) then o.rest w [] else .done (.error _)).run store s' = _
  rw [if_pos (forgives_iff.mpr ⟨hread, what, rfl⟩), rest, edit_of_not_isWrite hread]
  rfl

/-- What the store has said means that nothing is saved: there is no text, or the text is
no list of movies, or it is that of an empty list. -/
inductive SaysNothing : Except Failure (Option String) → Prop
  | absent : SaysNothing (.ok none)
  | unreadable (text : String) (f : Json.Fault) :
      Movie.listOfText text = .error f → SaysNothing (.ok (some text))
  | empty (text : String) : Movie.listOfText text = .ok [] → SaysNothing (.ok (some text))

theorem serveBy_entries_of_text {text : Option String}
    (hgot : store (.get w.listKey) s = (.ok text, s')) :
    entries.serveBy w store s = (.ok (.movies ((read text).toOption.getD [])), s') := by
  rw [serveBy_eq hgot]
  cases hread : read text with
  | ok ms =>
      rw [next_of_read hread]
      rfl
  | error f =>
      obtain ⟨what, rfl⟩ := internal_of_read hread
      rw [next]
      simp only [Except.bind, hread]
      rfl

theorem read_eq_nil_iff {text : Option String} :
    (read text).toOption.getD [] = [] ↔ SaysNothing (.ok text) := by
  cases text with
  | none => exact iff_of_true rfl .absent
  | some text =>
      rw [read]
      cases hlist : Movie.listOfText text with
      | error f => exact iff_of_true rfl (.unreadable text f hlist)
      | ok ms =>
          constructor
          · intro hnil
            exact .empty text (hlist.trans (congrArg Except.ok hnil))
          · intro h
            cases h with
            | unreadable _ f hfault =>
                rw [hlist] at hfault
                cases hfault
            | empty _ hempty => exact Except.ok.inj (hlist.symm.trans hempty)

theorem entries_eq_nil_iff {got : Except Failure (Option String)}
    (hgot : store (.get w.listKey) s = (got, s')) :
    (entries.serveBy w store s).1 = .ok (.movies []) ↔
      SaysNothing got ∨ ∃ what, got = .error (.internal what) := by
  cases got with
  | ok text =>
      have hreply : entries.serveBy w store s =
          (.ok (.movies ((read text).toOption.getD [])), s') := serveBy_entries_of_text hgot
      rw [hreply, Except.ok.injEq, Reply.movies.injEq, read_eq_nil_iff]
      exact (or_iff_left nofun).symm
  | error f =>
      by_cases hinternal : ∃ what, f = .internal what
      · obtain ⟨what, rfl⟩ := hinternal
        rw [serveBy_of_internal hgot rfl]
        exact iff_of_true rfl (.inr ⟨what, rfl⟩)
      · have hreply : entries.serveBy w store s = (.error f, s') :=
          serveBy_of_error hgot (.inr fun what h => hinternal ⟨what, h⟩)
        rw [hreply]
        refine iff_of_false nofun ?_
        rintro (h | ⟨what, h⟩)
        · cases h
        · exact hinternal ⟨what, Except.error.inj h⟩

end

/-- **A store that cannot be read is told to all, unless its failure is internal.**  On a
store of any kind whose first answer is a failure, every operation fails with that failure
and asks for nothing more, but for a reader and an internal failure, which makes it answer
as if the list were empty.  The saved movies are told to be none if and only if there is no
text, or the text is no list of movies or an empty one, or the failure is internal.  Over a
connection that does not fail so itself, every failure is passed on by every operation. -/
theorem passed_on_unless_internal (w : WatchList) :
    (∀ {σ : Type} (store : Behaviour σ) (s s' : σ) (got : Except Failure (Option String)),
      store (.get w.listKey) s = (got, s') →
        (∀ f, got = .error f → ∀ o : Operation,
          o.isWrite = true ∨ (∀ what, f ≠ .internal what) →
            o.serveBy w store s = (.error f, s')) ∧
        (∀ what, got = .error (.internal what) →
          entries.serveBy w store s = (.ok (.movies []), s') ∧
            ∀ id, (contains id).serveBy w store s = (.ok (.flag false), s')) ∧
        ((entries.serveBy w store s).1 = .ok (.movies []) ↔
          SaysNothing got ∨ ∃ what, got = .error (.internal what))) ∧
    ∀ {σ : Type} (connection : Store.Remote.Connection (StateM σ)),
      (∀ words s s' what, connection words s ≠ (.error (.internal what), s')) →
        ∀ (s s' : σ) (f : Failure) (o : Operation),
          Store.Remote.behaviour connection (.get w.listKey) s = (.error f, s') →
            o.serveBy w (Store.Remote.behaviour connection) s = (.error f, s') := by
  refine ⟨?_, ?_⟩
  · intro σ store s s' got hgot
    refine ⟨?_, ?_, entries_eq_nil_iff hgot⟩
    · rintro f rfl o hpass
      exact serveBy_of_error hgot hpass
    · rintro what rfl
      exact ⟨serveBy_of_internal hgot rfl, fun id => serveBy_of_internal hgot rfl⟩
  · intro σ connection hconnection s s' f o hgot
    refine serveBy_of_error hgot (.inr fun what => ?_)
    rintro rfl
    exact hconnection _ s s' what (Store.Remote.internal_of_behaviour hgot)

/-- A store that cannot be reached, and one on another machine that holds octets which are
no text. -/
theorem passed_on_unless_internal_down :
    let w : WatchList := ⟨some "ana"⟩
    let down : Behaviour Contents := answerUnder fun _ => some (.store "connection refused")
    let broken : Store.Remote.Connection (StateM Nat) := fun _ n => (.ok (.value [0xFF]), n + 1)
    down (.get w.listKey) ∅ = (.error (.store "connection refused"), ∅) ∧
      entries.serveBy w down ∅ = (.error (.store "connection refused"), ∅) ∧
      (contains 949).serveBy w down ∅ = (.error (.store "connection refused"), ∅) ∧
      (∀ words n n' what, broken words n ≠ (.error (.internal what), n')) ∧
      (contains 949).serveBy w (Store.Remote.behaviour broken) 0 =
        (.error (.store "the value is no text"), 1) := by
  intro w down broken
  obtain ⟨hany, hremote⟩ := passed_on_unless_internal w
  have hdown : down (.get w.listKey) ∅ = (.error (.store "connection refused"), ∅) := rfl
  obtain ⟨hpass, -, -⟩ := hany down ∅ ∅ _ hdown
  have hconnection : ∀ words n n' what, broken words n ≠ (.error (.internal what), n') :=
    fun _ _ _ _ => nofun
  exact ⟨hdown, hpass _ rfl entries (.inr fun _ => nofun),
    hpass _ rfl (contains 949) (.inr fun _ => nofun), hconnection,
    hremote broken hconnection 0 1 _ (contains 949) rfl⟩

/-- One movie is saved when the store begins to fail with an internal failure.  Whoever
wants to change the list is told, and whoever reads it is told that it is empty. -/
theorem internal_failure_hidden :
    let w : WatchList := ⟨none⟩
    let gone : Failure := .internal "disk gone"
    let store : Behaviour Contents := answerUnder fun
      | .get _ => some gone
      | _ => none
    let s : Contents :=
      (∅ : Contents).insert w.listKey "[\x7b\"movieId\":949,\"title\":\"Heat\"\x7d]"
    store (.get w.listKey) s = (.error gone, s) ∧
      entries.serveBy w store s = (.ok (.movies []), s) ∧
      (contains 949).serveBy w store s = (.ok (.flag false), s) ∧
      (add (Movie.bare 1 "Ran" [])).serveBy w store s = (.error gone, s) ∧
      (remove 949).serveBy w store s = (.error gone, s) := by
  intro w gone store s
  have hgone : store (.get w.listKey) s = (.error gone, s) := rfl
  exact ⟨hgone, serveBy_of_internal hgone rfl, serveBy_of_internal hgone rfl,
    serveBy_of_error hgone (.inl rfl), serveBy_of_error hgone (.inl rfl)⟩

end Operation

end Matinee.WatchList
