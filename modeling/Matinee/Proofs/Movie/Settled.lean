/-
# `Matinee.Proofs.Movie.Settled` — a movie settles with its first reading

There are many texts of a movie: an object with its members in any order and with
others among them, or an array; tags that are joined or listed.  What is read from
them is clean, and what is clean is read back from the one text that is written
for it.  So reading is a step that is taken once: what has been read is written and
read again without change, and its written text is rewritten as itself
(`reading_settles`).

The ratings are the exception.  A double is not always read where it was written,
so the law is for movies whose ratings are (`Rereadable`).
-/
import Matinee.Api.Input
import Matinee.Proofs.Movie.Clean

namespace Matinee.Movie

/-- The text that is written for the movie in a text. -/
def rewritten (s : String) : Except Json.Fault String := do
  let m ← ofText s
  return m.toJson.compact

theorem Clean.ofText_compact {m : Movie} (h : m.Clean) (hnumbers : m.Rereadable) :
    ofText m.toJson.compact = .ok m := by
  rw [Movie.ofText_compact, h.reread hnumbers]

theorem Clean.rewritten_compact {m : Movie} (h : m.Clean) (hnumbers : m.Rereadable) :
    rewritten m.toJson.compact = .ok m.toJson.compact := by
  rw [rewritten, h.ofText_compact hnumbers]
  rfl

theorem listOfText_compact_of_clean {ms : List Movie} (h : ∀ m ∈ ms, m.Clean ∧ m.Rereadable) :
    listOfText (listToJson ms).compact = .ok ms := by
  rw [listOfText_compact, map_reread h]

/-- A movie that was sent is clean, too, whatever stands behind it in the body. -/
theorem clean_of_readBody {r : Http.Request} {m : Movie}
    (h : Api.readBody Api.savedMovie r = .ok m) : m.Clean := by
  unfold Api.readBody at h
  split at h
  · cases h
  split at h
  · cases h
  split at h
  · rename_i hdecode
    injection h with h
    exact h ▸ clean_of_decode (Json.Document.finite_ofSymbols _) hdecode
  · cases h
  · cases h

/-- A clean movie is read back from its text.  Whatever is read is clean, be it a text of
its own, an item of a list or the body of a request; so it is written and read again
without change. -/
theorem reading_settles :
    (∀ m : Movie, m.Clean → m.Rereadable → ofText m.toJson.compact = .ok m) ∧
      (∀ (s : String) (m : Movie), ofText s = .ok m →
        m.Clean ∧ (m.Rereadable →
          ofText m.toJson.compact = .ok m ∧
            rewritten m.toJson.compact = .ok m.toJson.compact)) ∧
      (∀ (s : String) (ms : List Movie), listOfText s = .ok ms →
        (∀ m ∈ ms, m.Clean) ∧ ((∀ m ∈ ms, m.Rereadable) →
          listOfText (listToJson ms).compact = .ok ms)) ∧
      (∀ (r : Http.Request) (m : Movie), Api.readBody Api.savedMovie r = .ok m →
        m.Clean ∧ (m.Rereadable → ofText m.toJson.compact = .ok m)) := by
  refine ⟨fun m hclean hnumbers => hclean.ofText_compact hnumbers, ?_, ?_, ?_⟩
  · intro s m hread
    have hclean := clean_of_ofText hread
    exact ⟨hclean, fun hnumbers =>
      ⟨hclean.ofText_compact hnumbers, hclean.rewritten_compact hnumbers⟩⟩
  · intro s ms hread
    have hclean := clean_of_listOfText hread
    exact ⟨hclean, fun hnumbers =>
      listOfText_compact_of_clean fun m hm => ⟨hclean m hm, hnumbers m hm⟩⟩
  · intro r m hread
    have hclean := clean_of_readBody hread
    exact ⟨hclean, hclean.ofText_compact⟩

/-- A movie with all there is to know, and one from an array with joined tags. -/
theorem reading_settles_array :
    ofText (toJson ⟨18446744073709551615, "Léon \"1994\"", ["Crime", "Drama"], some "/p.jpg",
        some 8.3, some 4.15, some "", some "1994-09-14"⟩).compact =
      .ok ⟨18446744073709551615, "Léon \"1994\"", ["Crime", "Drama"], some "/p.jpg", some 8.3,
        some 4.15, some "", some "1994-09-14"⟩ ∧
    ofText "[101,\"L\\u00e9on\",\" Crime ||Drama\",null,8.3]" =
      .ok { bare 101 "Léon" ["Crime", "Drama"] with rating := some 8.3 } ∧
    rewritten (toJson { bare 101 "Léon" ["Crime", "Drama"] with rating := some 8.3 }).compact =
      .ok (toJson { bare 101 "Léon" ["Crime", "Drama"] with rating := some 8.3 }).compact := by
  have hread : ofText "[101,\"L\\u00e9on\",\" Crime ||Drama\",null,8.3]" =
      .ok { bare 101 "Léon" ["Crime", "Drama"] with rating := some 8.3 } := by
    decide +kernel
  refine ⟨reading_settles.1 _ (by decide +kernel) (by decide +kernel), hread, ?_⟩
  exact ((reading_settles.2.1 _ _ hread).2 (by decide +kernel)).2

end Matinee.Movie
