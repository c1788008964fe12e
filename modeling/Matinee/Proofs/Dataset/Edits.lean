/-
# `Matinee.Proofs.Dataset.Edits` — damage stays in its line

A text is cut into lines before anything else looks at it, and no reader of lines knows
more than its own line.  So the rows behind a newline do not depend on what stands in
front of it, once that has a first line for the header (`rowsOf_newline`), and all that
may be done to a text without touching its rows is done to one line: a carriage return
comes to its end, or a line comes in that is blank or that the reader skips.  A quote
that such a line opens is not open in the next one.

An edit is one such change (`Edit`); what one edit keeps, any number of them keeps.
-/
import Mathlib.Data.List.Induction
import Mathlib.Logic.Relation
import Matinee.Proofs.Dataset.Line
import Matinee.Proofs.Movie.RoundTrip
import Matinee.Proofs.Rating.Links
import Matinee.Proofs.Text.Pieces

namespace Matinee.Dataset

open Text (isAllBlank)

variable {α : Type} {read : List Char → Option α}

/-! ## Carriage returns -/

theorem stripReturns_concat (line : List Char) : stripReturns (line ++ ['\r']) = stripReturns line := by
  simp [stripReturns, Text.dropEndWhile]

theorem stripReturns_concat_of_ne {c : Char} (hc : c ≠ '\r') (line : List Char) :
    stripReturns (line ++ [c]) = line ++ [c] := by
  simp [stripReturns, Text.dropEndWhile, hc]

/-- What does not look at a carriage return at the end looks at none of them. -/
theorem apply_stripReturns {β : Type} {f : List Char → β}
    (hf : ∀ line, f (line ++ ['\r']) = f line) (line : List Char) : f (stripReturns line) = f line := by
  induction line using List.reverseRecOn with
  | nil => rfl
  | append_singleton line c ih =>
      by_cases hc : c = '\r'
      · rw [hc, stripReturns_concat, hf, ih]
      · rw [stripReturns_concat_of_ne hc]

theorem trim_concat_of_isBlank {c : Char} (hc : Text.isBlank c = true) (s : List Char) :
    Text.trim (s ++ [c]) = Text.trim s :=
  Text.trim_append_blanks s (List.forall_mem_singleton.mpr hc)

theorem catalogEntry?_stripReturns (line : List Char) :
    catalogEntry? (stripReturns line) = catalogEntry? line := by
  refine apply_stripReturns (fun line => ?_) line
  unfold catalogEntry?
  rw [stripReturns_concat]

theorem link?_stripReturns (line : List Char) : link? (stripReturns line) = link? line := by
  refine apply_stripReturns (fun line => ?_) line
  have hfields : splitPlain (line ++ ['\r']) = splitPlain line :=
    Text.map_splitAt_concat rfl (trim_concat_of_isBlank rfl) line
  rw [link?, hfields]
  rfl

/-! ## Rows -/

/-- What a reader of lines makes of the data lines of a text. -/
def rowsOf (read : List Char → Option α) (text : List Char) : List α :=
  (dataLines text).filterMap read

theorem splitLines_newline (a b : List Char) :
    splitLines (a ++ '\n' :: b) = splitLines a ++ splitLines b :=
  Text.splitAt_append_sep rfl a b

theorem splitLines_of_notMem {line : List Char} (h : '\n' ∉ line) : splitLines line = [line] := by
  refine Text.splitAt_of_forall_not fun c hc => beq_eq_false_iff_ne.mpr ?_
  rintro rfl
  exact h hc

theorem dataLines_newline (a b : List Char) :
    dataLines (a ++ '\n' :: b) = dataLines a ++ solidLines (splitLines b) := by
  have hfirst : 1 ≤ (splitLines a).length :=
    List.length_pos_of_ne_nil (Text.splitAt_ne_nil _ a)
  rw [dataLines, splitLines_newline, List.drop_append_of_le_length hfirst, solidLines_append]
  rfl

theorem dataLines_concat_return (a : List Char) : dataLines (a ++ ['\r']) = dataLines a := by
  have hlines : (splitLines (a ++ ['\r'])).map stripReturns = (splitLines a).map stripReturns :=
    Text.map_splitAt_concat rfl stripReturns_concat a
  rw [dataLines, dataLines, solidLines, solidLines, List.map_drop, List.map_drop, hlines]

theorem rowsOf_newline (read : List Char → Option α) (a b : List Char) :
    rowsOf read (a ++ '\n' :: b) =
      rowsOf read a ++ (solidLines (splitLines b)).filterMap read := by
  rw [rowsOf, dataLines_newline, List.filterMap_append]
  rfl

/-! ## Edits -/

/-- The line is no row: it is blank, or the reader skips it. -/
def Skipped (read : List Char → Option α) (line : List Char) : Prop :=
  isAllBlank line = true ∨ read line = none

theorem filterMap_of_skipped (hread : ∀ line, read (stripReturns line) = read line)
    {line : List Char} (hline : '\n' ∉ line) (h : Skipped read line) :
    (solidLines (splitLines line)).filterMap read = [] := by
  rw [splitLines_of_notMem hline, solidLines, List.map_singleton, List.filter_cons]
  split
  · rename_i hsolid
    rw [isAllBlank_stripReturns] at hsolid
    have hnone : read line = none := h.resolve_left (by simpa using hsolid)
    simp [hread, hnone]
  · rfl

/-- One change of a text that touches no row of the reader. -/
inductive Edit (read : List Char → Option α) : List Char → List Char → Prop
  /-- A line ends with a carriage return and a newline instead of a newline. -/
  | carriageReturn (a b : List Char) : Edit read (a ++ '\n' :: b) (a ++ '\r' :: '\n' :: b)
  /-- The text ends with a newline. -/
  | finalNewline (a : List Char) : Edit read a (a ++ ['\n'])
  /-- A line comes in behind another one. -/
  | line (a line b : List Char) : '\n' ∉ line → Skipped read line →
      Edit read (a ++ '\n' :: b) (a ++ '\n' :: line ++ '\n' :: b)
  /-- A line comes in behind all others. -/
  | lastLine (a line : List Char) : '\n' ∉ line → Skipped read line →
      Edit read a (a ++ '\n' :: line)

theorem rowsOf_edit (hread : ∀ line, read (stripReturns line) = read line) {s t : List Char}
    (h : Edit read s t) : rowsOf read t = rowsOf read s := by
  cases h with
  | carriageReturn a b =>
      have hcut : a ++ '\r' :: '\n' :: b = (a ++ ['\r']) ++ '\n' :: b := by simp
      rw [hcut, rowsOf_newline, rowsOf_newline, rowsOf, dataLines_concat_return]
      rfl
  | finalNewline a =>
      rw [rowsOf_newline]
      exact List.append_nil _
  | line a line b hline hskipped =>
      rw [rowsOf_newline, rowsOf_newline, rowsOf_newline, filterMap_of_skipped hread hline hskipped,
        List.append_nil]
  | lastLine a line hline hskipped =>
      rw [rowsOf_newline, filterMap_of_skipped hread hline hskipped, List.append_nil]

theorem rowsOf_edits (hread : ∀ line, read (stripReturns line) = read line) {s t : List Char}
    (h : Relation.ReflTransGen (Edit read) s t) : rowsOf read t = rowsOf read s := by
  induction h with
  | refl => rfl
  | tail _ hedit ih => exact (rowsOf_edit hread hedit).trans ih

/-! ## Blocks of lines -/

/-- Texts joined by newlines. -/
def joinLines (texts : List (List Char)) : List Char := List.intercalate ['\n'] texts

theorem splitLines_joinLines (first : List Char) (texts : List (List Char)) :
    splitLines (joinLines (first :: texts)) = splitLines first ++ texts.flatMap splitLines := by
  induction texts generalizing first with
  | nil =>
      rw [joinLines, List.intercalate_singleton]
      exact (List.append_nil _).symm
  | cons next texts ih =>
      rw [joinLines, List.intercalate_cons_cons, List.append_assoc, List.singleton_append,
        splitLines_newline, ← joinLines, ih, List.flatMap_cons]

theorem rowsOf_joinLines (read : List Char → Option α) {header : List Char} (h : '\n' ∉ header)
    (texts : List (List Char)) :
    rowsOf read (joinLines (header :: texts)) =
      (solidLines (texts.flatMap splitLines)).filterMap read := by
  rw [rowsOf, dataLines, splitLines_joinLines, splitLines_of_notMem h]
  rfl

theorem rowsOf_blocks (read : List Char → Option α) {header : List Char} (h : '\n' ∉ header)
    (front back : List (List Char)) :
    rowsOf read (joinLines (header :: (front ++ back))) =
      rowsOf read (joinLines (header :: front)) ++ rowsOf read (joinLines (header :: back)) := by
  rw [rowsOf_joinLines read h, rowsOf_joinLines read h, rowsOf_joinLines read h,
    List.flatMap_append, solidLines_append, List.filterMap_append]

/-! ## Entries and links -/

theorem pos_of_positiveId? {field : List Char} {id : UInt64} (h : positiveId? field = some id) :
    0 < id := by
  obtain ⟨-, hne⟩ := Option.filter_eq_some_iff.mp h
  exact UInt64.pos_iff_ne_zero.mpr (by simpa using hne)

theorem bar_notMem_of_mem_splitTags {s : List Char} {tag : String} (h : tag ∈ splitTags s) :
    '|' ∉ tag.toList := by
  simp only [splitTags, cleanTags, List.mem_map, List.mem_filter] at h
  obtain ⟨_, ⟨⟨piece, hpiece, rfl⟩, -⟩, rfl⟩ := h
  rw [String.toList_ofList]
  intro hbar
  have hnot := Text.sep_eq_false_of_mem_splitAt hpiece '|' (Text.mem_of_mem_trim hbar)
  exact absurd hnot (by decide)

theorem of_catalogEntry? {line : List Char} {e : CatalogEntry} (h : catalogEntry? line = some e) :
    0 < e.id ∧ ∃ field, e.genres = splitTags field := by
  unfold catalogEntry? at h
  split at h
  · obtain ⟨id, hid, rfl⟩ := Option.map_eq_some_iff.mp h
    exact ⟨pos_of_positiveId? hid, _, rfl⟩
  · cases h

theorem pos_of_link? {line : List Char} {row : Link} (h : link? line = some row) :
    0 < row.item ∧ 0 < row.external := by
  unfold link? at h
  split at h
  · simp only [Option.bind_eq_bind, Option.bind_eq_some_iff, Option.pure_def] at h
    obtain ⟨item, hitem, external, hexternal, hrow⟩ := h
    obtain rfl := Option.some.inj hrow
    exact ⟨pos_of_positiveId? hitem, pos_of_positiveId? hexternal⟩
  · cases h

theorem pos_of_item? {text : List Char} {external item : UInt64}
    (h : (Rating.Links.ofText text).item? external = some item) : 0 < external ∧ 0 < item := by
  obtain ⟨earlier, later, hrows, -⟩ := (Rating.Links.item?_ofRows_iff _ external item).mp h
  have hrow : (⟨item, external⟩ : Link) ∈ linksOf text :=
    hrows ▸ List.mem_append_right _ List.mem_cons_self
  obtain ⟨line, -, hline⟩ := List.mem_filterMap.mp hrow
  exact (pos_of_link? hline).symm

/-- **Damage stays in its line.**  However many carriage returns, final newlines, blank
lines and lines that the reader skips come into a text behind its first line, the catalog
of the text stays the same, and so does its link table.  Blocks of lines below a header
have their entries one after the other.  Every entry has a positive id and trimmed tags
that are not empty and hold no bar, and every linked id is positive. -/
theorem damage_stays_in_line :
    (∀ s t, Relation.ReflTransGen (Edit catalogEntry?) s t → catalogOf t = catalogOf s) ∧
      (∀ s t, Relation.ReflTransGen (Edit link?) s t →
        Rating.Links.ofText t = Rating.Links.ofText s) ∧
      (∀ header front back, '\n' ∉ header →
        catalogOf (joinLines (header :: (front ++ back))) =
          catalogOf (joinLines (header :: front)) ++ catalogOf (joinLines (header :: back))) ∧
      ∀ text,
        (∀ e ∈ catalogOf text, 0 < e.id ∧
          ∀ tag ∈ e.genres, Text.trim tag.toList = tag.toList ∧ tag ≠ "" ∧ '|' ∉ tag.toList) ∧
        ∀ external item, (Rating.Links.ofText text).item? external = some item →
          0 < external ∧ 0 < item := by
  refine ⟨?_, ?_, ?_, fun text => ⟨?_, fun external item => pos_of_item?⟩⟩
  · intro s t hedits
    exact rowsOf_edits catalogEntry?_stripReturns hedits
  · intro s t hedits
    have hrows : linksOf t = linksOf s := rowsOf_edits link?_stripReturns hedits
    rw [Rating.Links.ofText, Rating.Links.ofText, hrows]
  · intro header front back hheader
    exact rowsOf_blocks catalogEntry? hheader front back
  · intro e he
    obtain ⟨line, -, hline⟩ := List.mem_filterMap.mp he
    obtain ⟨hid, field, hgenres⟩ := of_catalogEntry? hline
    refine ⟨hid, ?_⟩
    intro tag htag
    rw [hgenres] at htag
    obtain ⟨htrim, hne⟩ := Movie.isTag_of_mem_cleanTags htag
    exact ⟨htrim, hne, bar_notMem_of_mem_splitTags htag⟩

/-- A line that leaves a quote open comes in behind the header, with a carriage return at
its end, and a link is broken off at the end of its file. -/
theorem damage_stays_in_line_open_quote :
    let header := "id,title,genres".toList
    let heat := "1,Heat,Crime | Drama".toList
    let links := "id,imdb,tmdb".toList ++ '\n' :: "1,113277,949".toList
    let damaged := header ++ '\n' :: "7,\"Alien".toList ++ '\r' :: '\n' :: heat
    Relation.ReflTransGen (Edit catalogEntry?) (header ++ '\n' :: heat) damaged ∧
      catalogOf damaged = [⟨1, "Heat", ["Crime", "Drama"]⟩] ∧
      (∀ tag ∈ ["Crime", "Drama"], '|' ∉ tag.toList) ∧
      Relation.ReflTransGen (Edit link?) links (links ++ '\n' :: "7,".toList) ∧
      Rating.Links.ofText (links ++ '\n' :: "7,".toList) = Rating.Links.ofText links ∧
      '\n' ∉ header ∧
      catalogOf (joinLines (header :: ([heat] ++ [heat]))) =
        catalogOf (joinLines [header, heat]) ++ catalogOf (joinLines [header, heat]) := by
  intro header heat links damaged
  obtain ⟨hcatalog, hlinks, hblocks, hentries⟩ := damage_stays_in_line
  have hedits : Relation.ReflTransGen (Edit catalogEntry?) (header ++ '\n' :: heat) damaged :=
    .tail (.single (.line header "7,\"Alien".toList heat (by decide +kernel)
      (.inr (by decide +kernel)))) (.carriageReturn _ heat)
  have hbroken : Relation.ReflTransGen (Edit link?) links (links ++ '\n' :: "7,".toList) :=
    .single (.lastLine links "7,".toList (by decide +kernel) (.inr (by decide +kernel)))
  have hdamaged : catalogOf damaged = [⟨1, "Heat", ["Crime", "Drama"]⟩] :=
    (hcatalog _ _ hedits).trans (by decide +kernel)
  have hheader : '\n' ∉ header := by decide +kernel
  refine ⟨hedits, hdamaged, ?_, hbroken, hlinks _ _ hbroken, hheader,
    hblocks header [heat] [heat] hheader⟩
  have hentry := (hentries damaged).1 ⟨1, "Heat", ["Crime", "Drama"]⟩ (hdamaged ▸ List.mem_cons_self)
  exact fun tag htag => (hentry.2 tag htag).2.2

end Matinee.Dataset
