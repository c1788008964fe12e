/-
# `Matinee.Proofs.Dataset.Quoting` — which commas part the fields of a line

The reader of a quoted line switches at every quote, so what it is about to do with a
comma depends on nothing but the parity of the quotes in front of it.  A comma behind an
even number of them ends a field (`openCommas`), and the fields are the texts between one
such comma and the next, their quotes dropped (`stretches`).  No line is broken: a quote
that is never closed, or stands in the middle of a field, counts like any other.

The induction is on the line, from inside or outside of quotes (`fieldsFrom_eq`): one more
character in front moves every position up by one.

Quoting is undone by this.  A field in quotes hides its commas and leaves the parity as it
was, so a row reads back however many of its fields are quoted that need not be.
-/
import Matinee.Dataset.Row

namespace Matinee.Dataset

/-! ## Positions -/

/-- The position holds a comma that ends a field, for a reader that begins inside or
outside of quotes. -/
def isOpenFrom (quoted : Bool) (s : List Char) (i : Nat) : Bool :=
  s[i]? == some ',' && (s.take i).count '"' % 2 == quoted.toNat

/-- The positions of the commas that end a field. -/
def openFrom (quoted : Bool) (line : List Char) : List Nat :=
  (List.range line.length).filter (isOpenFrom quoted line)

/-- The positions of the commas behind an even number of quotes. -/
def openCommas (s : List Char) : List Nat :=
  (List.range s.length).filter fun i => s[i]? == some ',' && (s.take i).count '"' % 2 == 0

/-- The text from one position up to, but without, another. -/
def between (line : List Char) (start stop : Nat) : List Char := (line.take stop).drop start

/-- The texts between some positions of a line, in order: the first begins with the line,
the last ends with it, and what stands at the positions is in none of them. -/
def cutAt (line : List Char) (cuts : List Nat) : List (List Char) :=
  List.zipWith (between line) (0 :: cuts.map (· + 1)) (cuts ++ [line.length])

/-- The texts between the open commas. -/
def stretches (line : List Char) : List (List Char) := cutAt line (openCommas line)

def withoutQuotes (s : List Char) : List Char := s.filter (· != '"')

theorem openCommas_eq (line : List Char) : openCommas line = openFrom false line := rfl

theorem isOpenFrom_zero (quoted : Bool) (c : Char) (line : List Char) :
    isOpenFrom quoted (c :: line) 0 = (c == ',' && !quoted) := by
  cases quoted <;> simp [isOpenFrom]

theorem isOpenFrom_succ (quoted : Bool) (c : Char) (line : List Char) (i : Nat) :
    isOpenFrom quoted (c :: line) (i + 1) = isOpenFrom (quoted ^^ (c == '"')) line i := by
  have hturn : ∀ n : Nat, ((n + 1) % 2 == quoted.toNat) = (n % 2 == (!quoted).toNat) := by
    intro n
    have hmod := Nat.mod_two_eq_zero_or_one n
    cases quoted <;> rcases hmod with hmod | hmod <;> simp [Nat.add_mod, hmod]
  rw [isOpenFrom, isOpenFrom, List.getElem?_cons_succ, List.take_succ_cons, List.count_cons]
  cases hquote : c == '"' with
  | true => rw [if_pos rfl, hturn, Bool.xor_true]
  | false => rw [if_neg Bool.false_ne_true, Nat.add_zero, Bool.xor_false]

theorem openFrom_cons (quoted : Bool) (c : Char) (line : List Char) :
    openFrom quoted (c :: line) =
      (if c == ',' && !quoted then [0] else []) ++
        (openFrom (quoted ^^ (c == '"')) line).map (· + 1) := by
  have hsucc : isOpenFrom quoted (c :: line) ∘ (· + 1) = isOpenFrom (quoted ^^ (c == '"')) line :=
    funext fun i => isOpenFrom_succ quoted c line i
  have hrest : ((List.range line.length).map Nat.succ).filter (isOpenFrom quoted (c :: line)) =
      (openFrom (quoted ^^ (c == '"')) line).map (· + 1) := by
    rw [List.filter_map, openFrom, ← hsucc]
  rw [openFrom, List.length_cons, List.range_succ_eq_map, List.filter_cons, isOpenFrom_zero, hrest]
  split <;> rfl

/-! ## Stretches -/

theorem zipWith_between_succ (c : Char) (line : List Char) (starts stops : List Nat) :
    List.zipWith (between (c :: line)) (starts.map (· + 1)) (stops.map (· + 1)) =
      List.zipWith (between line) starts stops := by
  rw [List.zipWith_map]
  rfl

theorem stops_cons (c : Char) (line : List Char) (cuts : List Nat) :
    cuts.map (· + 1) ++ [(c :: line).length] = (cuts ++ [line.length]).map (· + 1) := by
  rw [List.map_append]
  rfl

theorem cutAt_cons (c : Char) (line : List Char) (cuts : List Nat) :
    cutAt (c :: line) (cuts.map (· + 1)) = (cutAt line cuts).modifyHead (c :: ·) := by
  rw [cutAt, cutAt, stops_cons]
  cases cuts with
  | nil => rfl
  | cons cut cuts =>
      show (c :: between line 0 cut) ::
          List.zipWith (between (c :: line)) (((cut + 1) :: cuts.map (· + 1)).map (· + 1))
            ((cuts ++ [line.length]).map (· + 1)) =
        (c :: between line 0 cut) ::
          List.zipWith (between line) ((cut + 1) :: cuts.map (· + 1)) (cuts ++ [line.length])
      rw [zipWith_between_succ]

theorem cutAt_zero_cons (c : Char) (line : List Char) (cuts : List Nat) :
    cutAt (c :: line) (0 :: cuts.map (· + 1)) = [] :: cutAt line cuts := by
  rw [cutAt, List.cons_append, stops_cons, List.zipWith_cons_cons]
  exact congrArg ([] :: ·) (zipWith_between_succ c line (0 :: cuts.map (· + 1)) _)

theorem length_cutAt (line : List Char) (cuts : List Nat) :
    (cutAt line cuts).length = cuts.length + 1 := by
  rw [cutAt, List.length_zipWith, List.length_cons, List.length_map, List.length_append]
  exact Nat.min_self _

/-- The reader has put by the field begun, and goes on with the texts between the open
commas of the rest. -/
theorem fieldsFrom_eq (quoted : Bool) (field line : List Char) :
    fieldsFrom quoted field line =
      ((cutAt line (openFrom quoted line)).map withoutQuotes).modifyHead (field.reverse ++ ·) := by
  induction line generalizing quoted field with
  | nil =>
      rw [fieldsFrom]
      exact congrArg (fun first => [first]) (List.append_nil _).symm
  | cons c line ih =>
      rw [fieldsFrom, openFrom_cons]
      by_cases hquote : c = '"'
      · subst hquote
        rw [if_pos rfl, ih]
        simp only [Char.reduceBEq, Bool.false_and, Bool.false_eq_true, if_false, List.nil_append,
          Bool.xor_true, cutAt_cons]
        cases cutAt line (openFrom (!quoted) line) <;> rfl
      · have hplain : (c == '"') = false := beq_eq_false_iff_ne.mpr hquote
        rw [if_neg hquote, hplain, Bool.xor_false]
        by_cases hcomma : c = ',' ∧ quoted = false
        · obtain ⟨rfl, rfl⟩ := hcomma
          rw [if_pos ⟨rfl, rfl⟩, ih]
          simp only [BEq.rfl, Bool.not_false, Bool.and_true, if_true, List.singleton_append,
            cutAt_zero_cons, List.map_cons, List.modifyHead_cons]
          rw [show field.reverse ++ withoutQuotes [] = field.reverse from List.append_nil _]
          cases (cutAt line (openFrom false line)).map withoutQuotes <;> rfl
        · have hclosed : ¬ (c == ',' && !quoted) = true := by
            intro hopen
            obtain ⟨hc, houtside⟩ := Bool.and_eq_true_iff.mp hopen
            exact hcomma ⟨beq_iff_eq.mp hc, by simpa using houtside⟩
          rw [if_neg hcomma, ih, if_neg hclosed, List.nil_append, cutAt_cons]
          cases cutAt line (openFrom quoted line) with
          | nil => rfl
          | cons first rest => simp [withoutQuotes, hquote]

theorem splitQuoted_eq_stretches (line : List Char) :
    splitQuoted line = (stretches line).map withoutQuotes := by
  rw [splitQuoted, fieldsFrom_eq, ← openCommas_eq, ← stretches]
  cases (stretches line).map withoutQuotes <;> rfl

/-! ## Writing -/

/-- A field, and whether it is put in quotes: it need not be, unless it holds a comma, and
it holds no quotes of its own. -/
structure WrittenField where
  text : List Char
  quoted : Bool
  quote_notMem : '"' ∉ text
  quoted_of_comma_mem : ',' ∈ text → quoted = true

/-- The field in a line. -/
def WrittenField.written (f : WrittenField) : List Char :=
  if f.quoted then '"' :: (f.text ++ ['"']) else f.text

/-- A line of fields. -/
def writtenLine (fields : List WrittenField) : List Char :=
  List.intercalate [','] (fields.map WrittenField.written)

/-- The reader takes in a text that holds nothing for it to act on. -/
theorem fieldsFrom_append {quoted : Bool} {text : List Char} (hquote : '"' ∉ text)
    (hcomma : ',' ∈ text → quoted = true) (field rest : List Char) :
    fieldsFrom quoted field (text ++ rest) = fieldsFrom quoted (text.reverse ++ field) rest := by
  induction text generalizing field with
  | nil => rfl
  | cons c text ih =>
      have hc : c ≠ '"' := (List.ne_of_not_mem_cons hquote).symm
      have hhidden : ¬ (c = ',' ∧ quoted = false) := by
        rintro ⟨rfl, hopen⟩
        rw [hcomma List.mem_cons_self] at hopen
        cases hopen
      rw [List.cons_append, fieldsFrom, if_neg hc, if_neg hhidden,
        ih (List.not_mem_of_not_mem_cons hquote) fun h => hcomma (List.mem_cons_of_mem _ h),
        List.reverse_cons, List.append_assoc]
      rfl

theorem fieldsFrom_written (f : WrittenField) (field rest : List Char) :
    fieldsFrom false field (f.written ++ rest) =
      fieldsFrom false (f.text.reverse ++ field) rest := by
  rw [WrittenField.written]
  cases hquoted : f.quoted with
  | true =>
      have hhidden : ',' ∈ f.text → true = true := fun _ => rfl
      rw [if_pos rfl, List.cons_append, fieldsFrom, if_pos rfl, List.append_assoc,
        Bool.not_false, fieldsFrom_append f.quote_notMem hhidden, List.singleton_append,
        fieldsFrom, if_pos rfl, Bool.not_true]
  | false =>
      have hhidden : ',' ∈ f.text → false = true := by
        intro h
        rw [← hquoted]
        exact f.quoted_of_comma_mem h
      rw [if_neg Bool.false_ne_true, fieldsFrom_append f.quote_notMem hhidden]

theorem splitQuoted_writtenLine (f : WrittenField) (fields : List WrittenField) :
    splitQuoted (writtenLine (f :: fields)) = (f :: fields).map WrittenField.text := by
  induction fields generalizing f with
  | nil =>
      have hread := fieldsFrom_written f [] []
      rw [List.append_nil, List.append_nil, fieldsFrom, List.reverse_reverse] at hread
      rw [writtenLine, List.map_singleton, List.intercalate_singleton, List.map_singleton]
      exact hread
  | cons next fields ih =>
      have hline : writtenLine (f :: next :: fields) =
          f.written ++ ',' :: writtenLine (next :: fields) := by
        rw [writtenLine, List.map_cons, List.map_cons, List.intercalate_cons_cons, ← List.map_cons,
          ← writtenLine, List.append_assoc, List.singleton_append]
      have hnext : splitQuoted (writtenLine (next :: fields)) =
          (next :: fields).map WrittenField.text := ih next
      rw [hline, splitQuoted, fieldsFrom_written, fieldsFrom, if_neg (by decide),
        if_pos ⟨rfl, rfl⟩, ← splitQuoted, hnext, List.append_nil, List.reverse_reverse]
      rfl

/-- **Commas part fields by the parity of the quotes in front of them.**  A line has one
field more than it has commas behind an even number of quotes, and its fields are the
texts between these commas, without their quotes.  So quoting is undone: a line written
from one field or more, each in quotes that holds a comma, and others as one likes, reads
as these fields. -/
theorem fields_by_parity :
    (∀ line, (splitQuoted line).length = (openCommas line).length + 1 ∧
      splitQuoted line = (stretches line).map withoutQuotes) ∧
    ∀ fields, fields ≠ [] →
      splitQuoted (writtenLine fields) = fields.map WrittenField.text := by
  refine ⟨fun line => ⟨?_, splitQuoted_eq_stretches line⟩, ?_⟩
  · rw [splitQuoted_eq_stretches, List.length_map, stretches, length_cutAt]
  · intro fields hne
    obtain ⟨f, rest, rfl⟩ := List.exists_cons_of_ne_nil hne
    exact splitQuoted_writtenLine f rest

/-- A quote in the middle of a field, an empty field in quotes and a quote that is never
closed; and a row with an empty field at either end. -/
theorem fields_by_parity_unbalanced :
    let row : List WrittenField := [⟨[], false, by decide, by decide⟩,
      ⟨"Good, the Bad, The".toList, true, by decide +kernel, by decide⟩,
      ⟨"Western".toList, true, by decide +kernel, by decide⟩, ⟨[], true, by decide, by decide⟩]
    openCommas "a\"b,\"c,\"\",\"d,e".toList = [6, 9] ∧
      splitQuoted "a\"b,\"c,\"\",\"d,e".toList = ["ab,c".toList, [], "d,e".toList] ∧
      row ≠ [] ∧
      splitQuoted (writtenLine row) =
        [[], "Good, the Bad, The".toList, "Western".toList, []] := by
  intro row
  have hne : row ≠ [] := List.cons_ne_nil _ _
  exact ⟨by decide +kernel,
    (fields_by_parity.1 _).2.trans (by decide +kernel), hne, fields_by_parity.2 row hne⟩

end Matinee.Dataset
