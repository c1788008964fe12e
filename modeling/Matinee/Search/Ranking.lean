/-
# `Matinee.Search.Ranking` — which titles a query finds, and in what order

Titles and queries are compared trimmed and in lower case.  A title that equals
the query comes first, then titles that contain it, then titles of which some
word occurs in the query; among titles of one tier the order of the catalog
decides.
-/
import Matinee.Movie.Basic
import Matinee.Text.Contains
import Matinee.Text.LowerCase

namespace Matinee.Search

/-- How well a title meets a query, the best first. -/
inductive Tier where
  | exact
  | partly
  | fuzzy
deriving DecidableEq, Repr

/-- The form in which titles and queries are compared. -/
def comparisonForm (s : String) : List Char := Text.lower (Text.trim s.toList)

/-- Shorter queries find nothing. -/
def minQueryLength : Nat := 2

def isSearchable (query : String) : Bool := minQueryLength ≤ (Text.trim query.toList).length

/-- The characters between the words of a title. -/
def isWordBreak (c : Char) : Bool :=
  Text.isBlank c || c == ',' || c == '(' || c == ')' || c == '-'

/-- The words of a title; none of them is empty. -/
def words (title : List Char) : List (List Char) :=
  (Text.splitAt isWordBreak title).filter (!·.isEmpty)

/-- The tier of a title, both texts in their form for comparison. -/
def tier? (title query : List Char) : Option Tier :=
  if title = query then some .exact
  else if query.isPrefixOf title || Text.contains title query then some .partly
  else if (words title).any fun word => query.isPrefixOf word || Text.contains query word then
    some .fuzzy
  else none

/-- The entries that a query finds, each with its tier, in the order of the catalog. -/
def found (entries : List CatalogEntry) (query : List Char) : List (Tier × CatalogEntry) :=
  entries.filterMap fun e => (tier? (comparisonForm e.title) query).map (·, e)

/-- The entries of one tier. -/
def ofTier (found : List (Tier × CatalogEntry)) (t : Tier) : List CatalogEntry :=
  (found.filter (·.1 == t)).map (·.2)

/-- The first `limit` entries that a query finds. -/
def rank (entries : List CatalogEntry) (query : String) (limit : Nat) : List CatalogEntry :=
  if isSearchable query then
    let met := found entries (comparisonForm query)
    (ofTier met .exact ++ ofTier met .partly ++ ofTier met .fuzzy).take limit
  else []

end Matinee.Search
