/-
# `Matinee.RemoteCatalog.Genre` — genres by number

The remote catalog numbers its genres.  Numbers without a name are dropped, and a
movie that is left without any genre has the genre `Unknown`.
-/

namespace Matinee.RemoteCatalog

def genres : List (UInt32 × String) := [
  (28, "Action"), (12, "Adventure"), (16, "Animation"), (35, "Comedy"), (80, "Crime"),
  (99, "Documentary"), (18, "Drama"), (10751, "Family"), (14, "Fantasy"), (36, "History"),
  (27, "Horror"), (10402, "Music"), (9648, "Mystery"), (10749, "Romance"),
  (878, "Science Fiction"), (10770, "TV Movie"), (53, "Thriller"), (10752, "War"),
  (37, "Western")]

def genreName? (id : UInt32) : Option String := genres.lookup id

/-- The names of a movie's genres; there is always one. -/
def genreNames (ids : List UInt32) : List String :=
  match ids.filterMap genreName? with
  | [] => ["Unknown"]
  | names => names

end Matinee.RemoteCatalog
