/-
# `Matinee.Proofs.LiveSearch.AtRest` — searches that take no time

If a look-up takes no time that can be seen, a search is over at the moment at which it
begins.  So between two looks at the clock nothing is under way but the text that waits
for the timer, and it waits for a moment that is still to come; or nothing waits, and
then what is published is the answer to the latest text.  That is the invariant
(`AtRest`): a text keeps it, and so does any time that passes (`AtRest.rested`).
-/
import Matinee.LiveSearch.Clocked
import Matinee.Proofs.LiveSearch.Latest

namespace Matinee.LiveSearch.Clocked

/-! ## Time that passes -/

section

variable {m : Type → Type} [Monad m] {c : Clocked} {search : Searcher m}
  {find : String → m (List Movie)} {begun : Running}

/-- The search has begun, and its outcome is there at once. -/
def begin (c : Clocked) (begun : Running) (results : List Movie) : Clocked :=
  { c with
    live := c.live.fire
    now := c.timerDue
    endings := [⟨c.timerDue, begun.call, results⟩] }

/-- The search that waited has come to its end, some time ago. -/
def ended (c : Clocked) (ms : Nat) (begun : Running) (results : List Movie) : Clocked :=
  { c with
    live := c.live.fire.finish begun.call results
    now := c.now + ms
    endings := [] }

/-- The outcome is taken over in the same go. -/
theorem settle_begin (search : Searcher m) {limit : Nat} (results : List Movie)
    (hdue : c.timerDue < limit) :
    (c.begin begun results).settle search limit 1 =
      pure { c.ended 0 begun results with now := c.timerDue } := by
  have htimer : (c.begin begun results).live.timer = none := by
    simp only [begin, fire]
    split
    · rfl
    · assumption
  have hending : (nextEnding? (c.begin begun results).endings).filter (·.due < limit) =
      some ⟨c.timerDue, begun.call, results⟩ := by
    simp [begin, nextEnding?, hdue]
  simp only [settle, hending, htimer, Option.isSome_none, Bool.false_and, Bool.false_eq_true,
    if_false]
  simp [endSearch, begin, ended]

variable [LawfulMonad m]

theorem fireTimer_eq
    (hsearch : ∀ query, search query = (fun results => (results, 0)) <$> find query)
    (hendings : c.endings = []) (htimer : c.live.timer = some begun) (hnow : c.now ≤ c.timerDue) :
    c.fireTimer search = c.begin begun <$> find begun.query := by
  simp only [fireTimer, htimer, hsearch, hendings, Nat.max_eq_right hnow, bind_pure_comp,
    Functor.map_map, List.nil_append, Nat.add_zero]
  rfl

theorem advance_of_due
    (hsearch : ∀ query, search query = (fun results => (results, 0)) <$> find query)
    {ms : Nat} (hendings : c.endings = []) (htimer : c.live.timer = some begun)
    (hnow : c.now ≤ c.timerDue) (hdue : c.timerDue < c.now + ms) :
    c.advance search ms = c.ended ms begun <$> find begun.query := by
  have hfirst : c.settle search (c.now + ms) 2 =
      c.fireTimer search >>= fun c' => c'.settle search (c.now + ms) 1 := by
    have hwaits : c.live.timer.isSome = true := by rw [htimer]; rfl
    rw [settle]
    simp only [hendings, nextEnding?, Option.filter_none, hwaits, hdue, decide_true, Bool.true_and,
      if_true]
  simp only [advance, hendings, List.length_nil, Nat.zero_add]
  rw [hfirst, fireTimer_eq hsearch hendings htimer hnow]
  simp only [bind_map_left, settle_begin search _ hdue, bind_pure_comp, Functor.map_map]
  rfl

theorem advance_of_not_due (search : Searcher m) {ms : Nat} (hendings : c.endings = [])
    (htimer : c.live.timer = none ∨ c.now + ms ≤ c.timerDue) :
    c.advance search ms = pure { c with now := c.now + ms } := by
  have hquiet : (c.live.timer.isSome && decide (c.timerDue < c.now + ms)) = false := by
    rcases htimer with hnone | hlate
    · rw [hnone]
      rfl
    · rw [decide_eq_false (Nat.not_lt.mpr hlate), Bool.and_false]
  simp only [advance, settle, hendings, nextEnding?, hquiet, Option.filter_none, pure_bind,
    Bool.false_eq_true, if_false]

end

/-! ## At rest -/

variable {answer : String → List Movie} {c : Clocked}

/-- Nothing is under way but the text that may be waiting for the timer, and if none is
waiting, the latest text has its answer. -/
structure AtRest (answer : String → List Movie) (c : Clocked) : Prop where
  running : c.live.running = []
  endings : c.endings = []
  waiting : ∀ begun, c.live.timer = some begun →
    begun.query = c.live.latest ∧ c.now ≤ c.timerDue
  settled : c.live.timer = none → Search.isSearchable c.live.latest = true →
    c.live.current = ⟨c.live.latest, answer c.live.latest⟩

theorem atRest_initial : AtRest answer initial where
  running := rfl
  endings := rfl
  waiting := nofun
  settled := fun _ h => absurd h (by decide)

theorem AtRest.schedule (h : AtRest answer c) (delay : Nat) (text : String) :
    AtRest answer (c.schedule delay text) := by
  rw [Clocked.schedule, LiveSearch.schedule_eq]
  refine ⟨h.running, h.endings, fun begun hbegun => ?_, fun hnone hsearchable => ?_⟩
  · split at hbegun
    · obtain rfl := Option.some_inj.mp hbegun
      exact ⟨rfl, Nat.le_add_right _ _⟩
    · cases hbegun
  · rw [if_pos hsearchable] at hnone
    cases hnone

/-- What some time leads to if each search comes to its answer. -/
def rested (answer : String → List Movie) (ms : Nat) (c : Clocked) : Clocked :=
  match c.live.timer with
  | some begun =>
    if c.timerDue < c.now + ms then c.ended ms begun (answer begun.query)
    else { c with now := c.now + ms }
  | none => { c with now := c.now + ms }

theorem finish_fire (s : LiveSearch) {begun : Running} {results : List Movie}
    (hrunning : s.running = []) (htimer : s.timer = some begun) (hlatest : begun.query = s.latest) :
    s.fire.finish begun.call results = { s with
      timer := none
      running := []
      current := ⟨s.latest, results⟩
      published := s.published + 1 } := by
  simp [fire, finish, htimer, hrunning, hlatest, publish]

theorem AtRest.rested (h : AtRest answer c) (ms : Nat) :
    AtRest answer (c.rested answer ms) ∧ (c.rested answer ms).live.latest = c.live.latest ∧
      (c.rested answer ms).timerDue = c.timerDue ∧ (c.rested answer ms).now = c.now + ms := by
  unfold Clocked.rested
  cases htimer : c.live.timer with
  | none =>
      refine ⟨⟨h.running, h.endings, fun begun hbegun => ?_, h.settled⟩, rfl, rfl, rfl⟩
      rw [htimer] at hbegun
      cases hbegun
  | some begun =>
      obtain ⟨hlatest, -⟩ := h.waiting begun htimer
      by_cases hdue : c.timerDue < c.now + ms
      · dsimp only
        rw [if_pos hdue, ended, finish_fire c.live h.running htimer hlatest, hlatest]
        exact ⟨⟨rfl, rfl, nofun, fun _ _ => rfl⟩, rfl, rfl, rfl⟩
      · dsimp only
        rw [if_neg hdue]
        refine ⟨⟨h.running, h.endings, fun begun' hbegun => ?_, fun hnone => ?_⟩, rfl, rfl, rfl⟩
        · exact ⟨(h.waiting begun' hbegun).1, Nat.le_of_not_lt hdue⟩
        · rw [htimer] at hnone
          cases hnone

end Matinee.LiveSearch.Clocked
