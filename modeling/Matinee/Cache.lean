/-
# `Matinee.Cache` — a value that is computed once

A slot that is empty or holds a value.  Whoever finds it empty fills it; a fill
that fails leaves it empty, so the next one tries again.  The slot is locked
from the look at it to the end of the fill, hence every operation below is one
uninterrupted step, and callers that wait take their turns.
-/

namespace Matinee

/-- What has been computed, if anything. -/
abbrev Cache (α : Type) := Option α

namespace Cache

/-- The value in the slot, filled first if the slot is empty. -/
def getOrFill {m : Type → Type} [Monad m] {ε α : Type} (fill : m (Except ε α)) :
    StateT (Cache α) m (Except ε α) := do
  match ← get with
  | some a => return .ok a
  | none =>
    match ← fill with
    | .ok a =>
      set (some a)
      return .ok a
    | .error e => return .error e

/-- The value in the slot, if there is one. -/
def peek {m : Type → Type} [Monad m] {α : Type} : StateT (Cache α) m (Option α) := get

/-- Empties the slot. -/
def invalidate {m : Type → Type} [Monad m] {α : Type} : StateT (Cache α) m Unit := set (none : Cache α)

end Cache

end Matinee
