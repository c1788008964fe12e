/-
# `Matinee.Proofs.Json.RoundTrip` — what is written is read as one tree

`ReadAs v t`: wherever a value may stand, the written form of `v` puts the tree
`t` there.  The relation is closed under lists and objects, so for the form of a
record it is enough to know its scalars.  It needs a character behind the value,
as a number ends only there; a value that shows its own end is `SealedAs` its
tree.
-/
import Mathlib.Data.List.Forall2
import Matinee.Proofs.Json.Real

namespace Matinee.Json

open Document.State (feed_cons feed_append)

/-- A place where a value may begin. -/
def Expect.Opens (e : Expect) : Prop := e = .value ∨ e = .valueOrClose

/-- Inside a container the value is read as the tree. -/
def ReadAs (v : Json) (t : Tree) : Prop :=
  ∀ (frames : List Frame) (e : Expect) (c : Char) (rest : List Char), e.Opens → Closes c →
    Document.State.feed ⟨.between, .building frames e⟩ (render v ++ c :: rest) =
      Document.State.feed ⟨.between, Builder.put t frames⟩ (c :: rest)

/-- The value is read as the tree, and its end is seen. -/
def SealedAs (v : Json) (t : Tree) : Prop :=
  ∀ (frames : List Frame) (e : Expect), e.Opens →
    Document.State.feed ⟨.between, .building frames e⟩ (render v) = ⟨.between, Builder.put t frames⟩

theorem SealedAs.readAs {v : Json} {t : Tree} (h : SealedAs v t) : ReadAs v t := by
  intro frames e c rest he _
  rw [feed_append, h frames e he]

theorem add_scalar {e : Expect} (he : e.Opens) (frames : List Frame) (s : Scalar) :
    Builder.add (.building frames e) (.scalar s) = Builder.put (.scalar s) frames := by
  rcases he with rfl | rfl <;> cases frames <;> rfl

theorem feed_token {c : Char} {t : Token} (h : Scan.start c = (.between, [t])) (b : Builder)
    (s : List Char) :
    Document.State.feed ⟨.between, b⟩ (c :: s) = Document.State.feed ⟨.between, b.add t⟩ s := by
  rw [feed_cons]
  simp [Document.State.step, Scan.step, h]

/-! ## Scalars -/

theorem sealedAs_text (s : String) : SealedAs (.text s) (.scalar (.text (some s))) := by
  intro frames e he
  rw [render, feed_quoted, add_scalar he]

theorem IsNumeral.readAs {v : Json} {n : Number} (h : IsNumeral (render v) n) :
    ReadAs v (.scalar (.number (some n))) := by
  intro frames e c rest he hc
  rw [feed_numeral h hc, add_scalar he]

theorem readAs_whole {n : Int} (hlow : -(2 ^ 63 : Nat) ≤ n) (hhigh : n < (2 ^ 64 : Nat)) :
    ReadAs (.whole n) (.scalar (.number (some (.whole n)))) :=
  IsNumeral.readAs (by rw [render]; exact isNumeral_wholeText hlow hhigh)

/-- The double that is read where `x` was written. -/
def reread (x : Float) : Option Float :=
  (Decoder.whole Decoder.real (.ofText (Json.real x).compact)).toOption

/-- The number is written as a text that is read as that number. -/
def ReadsBack (x : Float) : Prop :=
  Decoder.whole Decoder.real (.ofText (Json.real x).compact) = .ok x

instance (x : Float) : Decidable (ReadsBack x) := inferInstanceAs (Decidable (_ = _))

theorem ReadsBack.reread {x : Float} (h : ReadsBack x) : Json.reread x = some x := by
  rw [Json.reread, h]
  rfl

/-- A finite double is read as a number, if not always as the same. -/
theorem exists_readAs_real {x : Float} (h : Matinee.Number.isFinite x = true) :
    ∃ t y, ReadAs (.real x) t ∧ Decoder.real t = .ok y ∧ Json.reread x = some y := by
  obtain ⟨v, hv⟩ := exists_isNumeral h
  obtain ⟨y, hy⟩ : ∃ y, Decoder.real (.scalar (.number (some v))) = .ok y := by
    cases v with
    | whole n => exact ⟨_, rfl⟩
    | real y => exact ⟨y, rfl⟩
  refine ⟨_, y, IsNumeral.readAs (by rw [render]; exact hv), hy, ?_⟩
  rw [Json.reread, compact, render, hv.ofText, Decoder.whole, hy]
  rfl

theorem feed_null (b : Builder) :
    Document.State.feed ⟨.between, b⟩ "null".toList = ⟨.between, b.add (.scalar .null)⟩ := rfl

theorem realText_of_not_isFinite {x : Float} (h : Matinee.Number.isFinite x = false) :
    realText x = "null".toList := by
  unfold Matinee.Number.isFinite at h
  unfold realText Matinee.Number.floatText?
  split at h
  · cases h
  · rename_i hmeaning
    split
    · rename_i hfinite
      exact absurd hfinite (hmeaning _)
    · rfl

theorem sealedAs_real_of_not_isFinite {x : Float} (h : Matinee.Number.isFinite x = false) :
    SealedAs (.real x) (.scalar .null) := by
  intro frames e he
  rw [render, realText_of_not_isFinite h, feed_null, add_scalar he]

theorem reread_of_not_isFinite {x : Float} (h : Matinee.Number.isFinite x = false) :
    reread x = none := by
  rw [reread, compact, render, realText_of_not_isFinite h]
  rfl

/-! ## Lists -/

theorem put_array (t : Tree) (items : List Tree) (frames : List Frame) :
    Builder.put t (.array items :: frames) =
      .building (.array (t :: items) :: frames) .commaOrClose := rfl

theorem renderItems_head (vs : List Json) :
    ∃ c s, renderItems vs = c :: s ∧ Closes c := by
  cases vs with
  | nil => exact ⟨_, _, rfl, Or.inr (Or.inl rfl)⟩
  | cons v vs => exact ⟨_, _, rfl, Or.inl rfl⟩

theorem feed_renderItems {vs : List Json} {ts : List Tree} (h : List.Forall₂ ReadAs vs ts)
    (items : List Tree) (frames : List Frame) :
    Document.State.feed ⟨.between, .building (.array items :: frames) .commaOrClose⟩
        (renderItems vs) =
      ⟨.between, Builder.put (.array (items.reverse ++ ts) true) frames⟩ := by
  induction h generalizing items with
  | nil =>
      rw [renderItems, feed_token rfl]
      simp [Builder.add]
  | @cons v t vs ts hv _ ih =>
      obtain ⟨c, s, hhead, hc⟩ := renderItems_head vs
      rw [renderItems, feed_token rfl, hhead]
      simp only [Builder.add]
      rw [hv _ _ c s (Or.inl rfl) hc, ← hhead, put_array, ih]
      simp

theorem sealedAs_array {vs : List Json} {ts : List Tree} (h : List.Forall₂ ReadAs vs ts) :
    SealedAs (.array vs) (.array ts true) := by
  intro frames e he
  have hopen : Builder.add (.building frames e) .openArray =
      .building (.array [] :: frames) .valueOrClose := by
    rcases he with rfl | rfl <;> cases frames <;> rfl
  cases h with
  | nil =>
      rw [render, feed_token rfl, hopen, feed_token rfl]
      rfl
  | @cons v t vs ts hv hvs =>
      obtain ⟨c, s, hhead, hc⟩ := renderItems_head vs
      rw [render, feed_token rfl, hopen, hhead, hv _ _ c s (Or.inr rfl) hc, ← hhead,
        put_array, feed_renderItems hvs]
      rfl

/-! ## Objects -/

/-- A member is read as its name with what its value is read as. -/
def MemberReadAs (m : String × Json) (p : Option String × Tree) : Prop :=
  p.1 = some m.1 ∧ ReadAs m.2 p.2

theorem renderMembers_head (ms : List (String × Json)) :
    ∃ c s, renderMembers ms = c :: s ∧ Closes c := by
  cases ms with
  | nil => exact ⟨_, _, rfl, Or.inr (Or.inr rfl)⟩
  | cons m ms => exact ⟨_, _, rfl, Or.inl rfl⟩

theorem feed_member {m : String × Json} {p : Option String × Tree} (h : MemberReadAs m p)
    {e : Expect} (he : e = .name ∨ e = .nameOrClose) {members : List (Option String × Tree)}
    {frames : List Frame} {c : Char} {s : List Char} (hc : Closes c) :
    Document.State.feed ⟨.between, .building (.object members none :: frames) e⟩
        (quoted m.1 ++ ':' :: (render m.2 ++ c :: s)) =
      Document.State.feed
        ⟨.between, .building (.object (p :: members) none :: frames) .commaOrClose⟩ (c :: s) := by
  obtain ⟨name, v⟩ := m
  obtain ⟨_, t⟩ := p
  obtain ⟨rfl, hv⟩ := h
  have hname : Builder.add (.building (.object members none :: frames) e)
      (.scalar (.text (some name))) =
        .building (.object members (some (some name)) :: frames) .colon := by
    rcases he with rfl | rfl <;> rfl
  rw [feed_append, feed_quoted, hname, feed_token rfl]
  simp only [Builder.add]
  rw [hv _ _ c s (Or.inl rfl) hc]
  rfl

theorem feed_renderMembers {ms : List (String × Json)} {ps : List (Option String × Tree)}
    (h : List.Forall₂ MemberReadAs ms ps) (members : List (Option String × Tree))
    (frames : List Frame) :
    Document.State.feed ⟨.between, .building (.object members none :: frames) .commaOrClose⟩
        (renderMembers ms) =
      ⟨.between, Builder.put (.object (members.reverse ++ ps) true) frames⟩ := by
  induction h generalizing members with
  | nil =>
      rw [renderMembers, feed_token rfl]
      simp [Builder.add]
  | @cons m p ms ps hm _ ih =>
      obtain ⟨c, s, hhead, hc⟩ := renderMembers_head ms
      rw [renderMembers, feed_token rfl, hhead]
      simp only [Builder.add]
      rw [feed_member hm (Or.inl rfl) hc, ← hhead, ih]
      simp

theorem sealedAs_object {ms : List (String × Json)} {ps : List (Option String × Tree)}
    (h : List.Forall₂ MemberReadAs ms ps) : SealedAs (.object ms) (.object ps true) := by
  intro frames e he
  have hopen : Builder.add (.building frames e) .openObject =
      .building (.object [] none :: frames) .nameOrClose := by
    rcases he with rfl | rfl <;> cases frames <;> rfl
  cases h with
  | nil =>
      rw [render, feed_token rfl, hopen, feed_token rfl]
      rfl
  | @cons m p ms ps hm hms =>
      obtain ⟨c, s, hhead, hc⟩ := renderMembers_head ms
      rw [render, feed_token rfl, hopen, hhead, feed_member hm (Or.inr rfl) hc, ← hhead,
        feed_renderMembers hms]
      rfl

/-! ## Whole texts -/

/-- A value that shows its end is read back from a text of its own. -/
theorem SealedAs.ofText {v : Json} {t : Tree} (h : SealedAs v t) :
    Document.ofText v.compact = ⟨t, false⟩ := by
  have hfeed : Document.State.feed .start (render v) = ⟨.between, .complete t false⟩ :=
    h [] .value (Or.inl rfl)
  have hdoc : Document.ofText v.compact = (Document.State.feed .start (render v)).finish := by
    simp [Document.ofText, Document.ofSymbols, Document.State.feed, compact]
  rw [hdoc, hfeed]
  rfl

theorem SealedAs.whole {v : Json} {t : Tree} (h : SealedAs v t) {d : Decoder α} {a : α}
    (ha : d t = .ok a) : Decoder.whole d (.ofText v.compact) = .ok a := by
  rw [h.ofText, Decoder.whole, ha]
  rfl

end Matinee.Json
