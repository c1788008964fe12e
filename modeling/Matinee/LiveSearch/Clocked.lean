/-
# `Matinee.LiveSearch.Clocked` — live search with a clock

The machine of `LiveSearch.Basic` driven by a clock: a timer fires after a fixed
delay, and a search takes as long as its slowest look-up.  Time passes only in
`advance`, which lets everything happen that is due, in the order of its times;
of two things due at once the search that ends comes before the timer.  What is
due at the very moment at which `advance` ends is left for the next time: whoever
waits until then may look on, or give a new text, before it happens.
-/
import Matinee.LiveSearch.Basic

namespace Matinee.LiveSearch

/-- A search whose outcome is known already and comes out at `due`. -/
structure Ending where
  due : Nat
  call : Nat
  results : List Movie

structure Clocked where
  live : LiveSearch
  now : Nat
  /-- When the timer fires, if there is one. -/
  timerDue : Nat
  endings : List Ending

namespace Clocked

def initial : Clocked := ⟨.initial, 0, 0, []⟩

def schedule (c : Clocked) (delay : Nat) (text : String) : Clocked :=
  { c with live := c.live.schedule text, timerDue := c.now + delay }

/-- The ending that is due first. -/
def nextEnding? : List Ending → Option Ending
  | [] => none
  | e :: rest =>
    match nextEnding? rest with
    | some e' => if e'.due < e.due then some e' else some e
    | none => some e

/-- What a search with some query comes to, and how long it takes. -/
abbrev Searcher (m : Type → Type) := String → m (List Movie × Nat)

variable {m : Type → Type} [Monad m]

/-- The search that ends first is over. -/
def endSearch (c : Clocked) (e : Ending) : Clocked :=
  { c with
    live := c.live.finish e.call e.results
    now := max c.now e.due
    endings := c.endings.filter (·.call != e.call) }

/-- The timer fires and its search begins. -/
def fireTimer (search : Searcher m) (c : Clocked) : m Clocked := do
  match c.live.timer with
  | none => return c
  | some begun =>
    let (results, duration) ← search begun.query
    let now := max c.now c.timerDue
    return { c with
      live := c.live.fire
      now
      endings := c.endings ++ [⟨now + duration, begun.call, results⟩] }

/-- Lets the next thing happen that is due before `limit`, over and over; everything
that waits happens once, and a timer leads to one more ending. -/
def settle (search : Searcher m) (limit : Nat) : Nat → Clocked → m Clocked
  | 0, c => return c
  | fuel + 1, c => do
    let ending := (nextEnding? c.endings).filter (·.due < limit)
    let timer := c.live.timer.isSome && c.timerDue < limit
    match ending with
    | some e =>
      if timer && c.timerDue < e.due then settle search limit fuel (← c.fireTimer search)
      else settle search limit fuel (c.endSearch e)
    | none => if timer then settle search limit fuel (← c.fireTimer search) else return c

/-- Lets `ms` milliseconds pass. -/
def advance (search : Searcher m) (ms : Nat) (c : Clocked) : m Clocked := do
  let limit := c.now + ms
  let c ← c.settle search limit (c.endings.length + 2)
  return { c with now := limit }

end Clocked

end Matinee.LiveSearch
