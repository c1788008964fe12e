/-
# `Matinee.Catalog` — the local catalog, read when it is first needed

A catalog that cannot be read counts as empty, and is tried again the next time;
one that has been read is kept until it is invalidated.
-/
import Matinee.Cache
import Matinee.Dataset.Row
import Matinee.Failure

namespace Matinee

abbrev Catalog := Cache (List CatalogEntry)

namespace Catalog

/-- The entries, from the text that `fetch` gives if it has to be asked. -/
def load {m : Type → Type} [Monad m] (fetch : m (Except Failure (List Char))) :
    StateT Catalog m (List CatalogEntry) := do
  match ← Cache.getOrFill (do return (← fetch).map Dataset.catalogOf) with
  | .ok entries => return entries
  | .error _ => return []

end Catalog

end Matinee
