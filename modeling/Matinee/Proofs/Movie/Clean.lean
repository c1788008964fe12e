/-
# `Matinee.Proofs.Movie.Clean` — what is read is clean

Whatever form a movie is read from, its tags come out trimmed and its ratings
finite (`clean_of_decode`).  The members of an object and the items of an array
are taken one by one into a draft, so this is an invariant of the draft.
-/
import Matinee.Proofs.Json.Record
import Matinee.Proofs.Movie.RoundTrip

namespace Matinee.Movie

open Matinee.Json (RecordField Decoder Fault Tree Keeps ok_of_bind ok_of_require ok_of_whole
  exists_items_of_list exists_of_mem_forall₂)

/-! ## Movies -/

/-- The draft of a clean movie. -/
structure Draft.Clean (d : Draft) : Prop where
  tags : ∀ t ∈ d.genres, IsTag t
  rating : ∀ x ∈ d.rating, Number.isFinite x = true
  fivePoint : ∀ x ∈ d.fivePoint, Number.isFinite x = true

theorem isTag_of_decodeGenres {depth : Nat} {t : Tree} {tags : List String}
    (h : decodeGenres depth t = .ok tags) : ∀ tag ∈ tags, IsTag tag := by
  obtain ⟨-, h⟩ := ok_of_require h
  split at h
  · injection h with h
    exact h ▸ fun _ => isTag_of_mem_cleanTags
  · split at h
    · injection h with h
      exact h ▸ fun _ => isTag_of_mem_cleanTags
    · cases h

theorem isFinite_of_optional {t : Tree} (ht : t.Finite) {o : Option Float}
    (h : Decoder.optional Decoder.real t = .ok o) : ∀ x ∈ o, Number.isFinite x = true := by
  intro x hx
  unfold Decoder.optional at h
  split at h
  · injection h with h
    rw [← h] at hx
    cases hx
  · cases hreal : Decoder.real t with
    | error f =>
        rw [hreal] at h
        cases h
    | ok y =>
        rw [hreal] at h
        injection h with h
        rw [← h] at hx
        exact Option.mem_some.mp hx ▸ Json.isFinite_of_real ht hreal

theorem keeps_clean (depth : Nat) : Keeps (fields depth) Draft.Clean := by
  intro field hfield draft draft' t ht hdraft h
  simp only [fields, List.mem_cons, List.not_mem_nil, or_false] at hfield
  rcases hfield with rfl | rfl | rfl | rfl | rfl | rfl | rfl | rfl <;>
    obtain ⟨a, ha, h⟩ := ok_of_bind h <;> injection h with h <;> subst h
  · exact ⟨hdraft.tags, hdraft.rating, hdraft.fivePoint⟩
  · exact ⟨hdraft.tags, hdraft.rating, hdraft.fivePoint⟩
  · exact ⟨isTag_of_decodeGenres ha, hdraft.rating, hdraft.fivePoint⟩
  · exact ⟨hdraft.tags, hdraft.rating, hdraft.fivePoint⟩
  · exact ⟨hdraft.tags, isFinite_of_optional ht ha, hdraft.fivePoint⟩
  · exact ⟨hdraft.tags, hdraft.rating, isFinite_of_optional ht ha⟩
  · exact ⟨hdraft.tags, hdraft.rating, hdraft.fivePoint⟩
  · exact ⟨hdraft.tags, hdraft.rating, hdraft.fivePoint⟩

theorem clean_of_decode {depth : Nat} {t : Tree} (ht : t.Finite) {m : Movie}
    (h : decode depth t = .ok m) : m.Clean := by
  have hblank : Draft.blank.Clean := by
    constructor <;> exact fun _ hx => nomatch hx
  obtain ⟨draft, hdraft, hfinish⟩ := (keeps_clean depth).record hblank ht h
  obtain ⟨id, title, genres, poster, rating, fivePoint, overview, releaseDate⟩ := draft
  cases id with
  | none => cases hfinish
  | some id =>
      cases title with
      | none => cases hfinish
      | some title =>
          injection hfinish with hfinish
          subst hfinish
          refine ⟨hdraft.tags, fun x hx => ?_⟩
          rcases mem_ratings.mp hx with hx | hx
          · exact hdraft.rating x hx
          · exact hdraft.fivePoint x hx

theorem clean_of_ofText {s : String} {m : Movie} (h : ofText s = .ok m) : m.Clean :=
  clean_of_decode (Json.Document.finite_ofText s) (ok_of_whole h)

theorem clean_of_listOfText {s : String} {ms : List Movie} (h : listOfText s = .ok ms) :
    ∀ m ∈ ms, m.Clean := by
  intro m hm
  obtain ⟨items, hroot, hitems⟩ := exists_items_of_list (ok_of_whole h)
  obtain ⟨t, ht, hdecode⟩ := exists_of_mem_forall₂ hitems hm
  have hfinite := Json.Document.finite_ofText s
  rw [hroot] at hfinite
  cases hfinite with
  | array hfinite => exact clean_of_decode (hfinite t ht) hdecode

end Matinee.Movie
