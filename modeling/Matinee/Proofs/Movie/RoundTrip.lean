/-
# `Matinee.Proofs.Movie.RoundTrip` — what is read where movies were written

Reading cleans the tags of a movie, and its ratings are those that are read where
they were written; nothing else changes (`reread`).  So a `Clean` movie whose
ratings read back is read as itself.

The members of an object are taken one after the other (`Json.Takes`), and those that
a movie lacks are not there to be taken (`takes_member`).
-/
import Matinee.Movie.Json
import Matinee.Proofs.Json.Written
import Matinee.Proofs.Text.Blank

namespace Matinee.Movie

open Matinee.Json (RecordField Decoder Fault Tree ReadAs SealedAs ReadsBack Takes takes_one
  mapM_ok_iff exists_list exists_uint64 exists_text exists_optional)

/-! ## Clean movies -/

/-- A tag that is trimmed and not empty. -/
def IsTag (t : String) : Prop := Text.trim t.toList = t.toList ∧ t ≠ ""

/-- The numbers of a movie that are written with a point or an exponent. -/
def ratings (m : Movie) : List Float := m.rating.toList ++ m.fivePoint.toList

/-- A movie as reading leaves it. -/
structure Clean (m : Movie) : Prop where
  tags : ∀ t ∈ m.genres, IsTag t
  finite : ∀ x ∈ m.ratings, Number.isFinite x = true

/-- The finite ratings are written so that they read back. -/
def Rereadable (m : Movie) : Prop := ∀ x ∈ m.ratings, Number.isFinite x = true → ReadsBack x

/-- The movie that is read where `m` was written. -/
def reread (m : Movie) : Movie :=
  { m with
    genres := cleanTags (m.genres.map String.toList)
    rating := m.rating.bind Json.reread
    fivePoint := m.fivePoint.bind Json.reread }

instance (t : String) : Decidable (IsTag t) := inferInstanceAs (Decidable (_ ∧ _))

instance (m : Movie) : Decidable m.Clean :=
  decidable_of_iff ((∀ t ∈ m.genres, IsTag t) ∧ ∀ x ∈ m.ratings, Number.isFinite x = true)
    ⟨fun h => ⟨h.1, h.2⟩, fun h => ⟨h.tags, h.finite⟩⟩

instance (m : Movie) : Decidable m.Rereadable :=
  inferInstanceAs (Decidable (∀ x ∈ m.ratings, Number.isFinite x = true → ReadsBack x))

theorem isTag_of_mem_cleanTags {tags : List (List Char)} {t : String} (h : t ∈ cleanTags tags) :
    IsTag t := by
  simp only [cleanTags, List.mem_map, List.mem_filter, Bool.not_eq_true',
    List.isEmpty_eq_false_iff] at h
  obtain ⟨_, ⟨⟨tag, -, rfl⟩, hne⟩, rfl⟩ := h
  refine ⟨?_, fun hempty => hne ?_⟩
  · rw [String.toList_ofList, Text.trim_trim]
  · simpa using congrArg String.toList hempty

theorem cleanTags_toList {tags : List String} (h : ∀ t ∈ tags, IsTag t) :
    cleanTags (tags.map String.toList) = tags := by
  induction tags with
  | nil => rfl
  | cons t tags ih =>
      obtain ⟨htrim, hne⟩ := h t List.mem_cons_self
      have hnil : t.toList ≠ [] := fun hnil => hne (String.toList_eq_nil_iff.mp hnil)
      have ih' := ih fun u hu => h u (List.mem_cons_of_mem _ hu)
      rw [cleanTags] at ih' ⊢
      simp only [List.map_cons, htrim]
      rw [List.filter_cons_of_pos (by simpa using hnil), List.map_cons, ih', String.ofList_toList]

theorem mem_ratings {m : Movie} {x : Float} :
    x ∈ m.ratings ↔ x ∈ m.rating ∨ x ∈ m.fivePoint := by
  simp [ratings]

theorem Clean.reread {m : Movie} (h : m.Clean) (hnumbers : m.Rereadable) : m.reread = m := by
  have hbind {o : Option Float} (ho : ∀ x ∈ o, x ∈ m.ratings) : o.bind Json.reread = o := by
    cases o with
    | none => rfl
    | some x => exact (hnumbers x (ho x rfl) (h.finite x (ho x rfl))).reread
  have hrating := hbind fun x hx => mem_ratings.mpr (Or.inl hx)
  have hfivePoint := hbind fun x hx => mem_ratings.mpr (Or.inr hx)
  rw [Movie.reread, cleanTags_toList h.tags, hrating, hfivePoint]

theorem map_reread {ms : List Movie} (h : ∀ m ∈ ms, m.Clean ∧ m.Rereadable) :
    ms.map Movie.reread = ms :=
  (List.map_congr_left fun m hm => (h m hm).1.reread (h m hm).2).trans (List.map_id ms)

/-! ## Members that may be missing -/

theorem takes_member {σ : Type} {fields : List (RecordField σ)} {known : List String} {draft : σ}
    (name : String) {f : α → Json} {g : α → Option β} {d : Decoder β}
    (o : Option α) (set : σ → Option β → σ)
    (hfield : fields.find? (·.name == name) =
      some ⟨name, false, fun draft t => do return set draft (← Decoder.optional d t)⟩)
    (hname : name ∉ known) (hset : set draft none = draft)
    (hread : ∀ a ∈ o, ∃ t, ReadAs (f a) t ∧ Decoder.optional d t = .ok (g a)) :
    Takes fields known draft (member name f o) (name :: known) (set draft (o.bind g)) := by
  cases o with
  | some a => exact takes_one name set hfield hname (hread a rfl)
  | none =>
      rw [Option.bind_none, hset]
      exact ⟨[], .nil, fun seen hseen =>
        ⟨seen, List.subset_cons_of_subset name hseen, fun _ => rfl⟩⟩

/-! ## The values of the members -/

/-- A rating is read as a number, or as none if it is not finite. -/
theorem exists_rating (x : Float) : ∃ t, ReadAs (.real x) t ∧
    Decoder.optional Decoder.real t = .ok (Json.reread x) := by
  cases hfinite : Number.isFinite x with
  | true =>
      obtain ⟨t, y, ht, hy, hreread⟩ := Json.exists_readAs_real hfinite
      rw [hreread]
      exact exists_optional ⟨t, ht, hy⟩ (by rintro ⟨⟩)
  | false =>
      rw [Json.reread_of_not_isFinite hfinite]
      exact ⟨_, (Json.sealedAs_real_of_not_isFinite hfinite).readAs, rfl⟩

theorem usableItems_texts (room : Nat) (tags : List String) :
    Tree.usableItems room (tags.map fun s => .scalar (.text (some s))) = true := by
  induction tags with
  | nil => rfl
  | cons s tags ih =>
      rw [List.map_cons, Tree.usableItems, ih]
      rfl

/-- Tags are read and cleaned, unless too many containers stand around them. -/
theorem exists_genres {depth : Nat} (hdepth : depth < Json.nestingLimit) (tags : List String) :
    ∃ t, ReadAs (.array (tags.map .text)) t ∧
      decodeGenres depth t = .ok (cleanTags (tags.map String.toList)) := by
  have hread : List.Forall₂ ReadAs (tags.map Json.text)
      (tags.map fun s => .scalar (.text (some s))) := by
    induction tags with
    | nil => exact .nil
    | cons s tags ih =>
        exact .cons (Json.sealedAs_text s).readAs ih
  have hlist : Decoder.list Decoder.text
      (.array (tags.map fun s => .scalar (.text (some s))) true) = .ok tags := by
    have htexts : List.Forall₂ (fun t s => Decoder.text t = .ok s)
        (tags.map fun s => .scalar (.text (some s))) tags := by
      rw [List.forall₂_map_left_iff, List.forall₂_same]
      exact fun _ _ => rfl
    rw [Decoder.list, mapM_ok_iff.mpr htexts]
    rfl
  have hroom : (Json.nestingLimit - depth != 0) = true := by
    rw [bne_iff_ne]
    omega
  refine ⟨_, (Json.sealedAs_array hread).readAs, ?_⟩
  rw [decodeGenres, Tree.usable, hroom, usableItems_texts]
  simp only [Decoder.require]
  rw [hlist]
  · rfl
  · rintro _ ⟨⟩

/-! ## Movies -/

theorem exists_movie {depth : Nat} (hdepth : depth + 1 < Json.nestingLimit) (m : Movie) :
    ∃ t, SealedAs m.toJson t ∧ decode depth t = .ok m.reread := by
  have htext (s : String) : ∃ t, ReadAs (.text s) t ∧
      Decoder.optional Decoder.text t = .ok (some s) :=
    exists_optional (exists_text s) (by rintro ⟨⟩)
  have htakes := (takes_one "movieId" (fun d a => { d with id := some a }) rfl (by decide)
      (exists_uint64 m.id) : Takes (fields depth) [] Draft.blank _ _ _)
    |>.append (takes_one "title" (fun d a => { d with title := some a }) rfl (by decide)
      (exists_text m.title))
    |>.append (takes_one "genres" (fun d a => { d with genres := a }) rfl (by decide)
      (exists_genres hdepth m.genres))
    |>.append (takes_member "poster" m.poster (fun d o => { d with poster := o }) rfl (by decide)
      rfl fun s _ => htext s)
    |>.append (takes_member "rating" m.rating (fun d o => { d with rating := o }) rfl (by decide)
      rfl fun x _ => exists_rating x)
    |>.append (takes_member "csvRating" m.fivePoint (fun d o => { d with fivePoint := o }) rfl
      (by decide) rfl fun x _ => exists_rating x)
    |>.append (takes_member "overview" m.overview (fun d o => { d with overview := o }) rfl
      (by decide) rfl fun s _ => htext s)
    |>.append (takes_member "releaseDate" m.releaseDate (fun d o => { d with releaseDate := o }) rfl
      (by decide) rfl fun s _ => htext s)
  refine htakes.exists_record ?_
  simp only [Option.bind_fun_some]
  rfl

theorem ofText_compact (m : Movie) : ofText m.toJson.compact = .ok m.reread := by
  obtain ⟨t, ht, hd⟩ := exists_movie (by decide : 0 + 1 < Json.nestingLimit) m
  exact ht.whole hd

theorem listOfText_compact (ms : List Movie) :
    listOfText (listToJson ms).compact = .ok (ms.map reread) := by
  have hread : ∀ m ∈ ms, ∃ t, ReadAs m.toJson t ∧ decode 1 t = .ok m.reread := fun m _ => by
    obtain ⟨t, ht, hd⟩ := exists_movie (by decide : 1 + 1 < Json.nestingLimit) m
    exact ⟨t, ht.readAs, hd⟩
  obtain ⟨t, ht, hd⟩ := exists_list hread
  exact ht.whole hd

end Matinee.Movie
