/-
# `Matinee.Proofs.Search.Words` — what decides the tier of a title

The loosest tier is for titles with a word that meets the query.  The words are the
longest runs of characters that separate nothing; a run that is empty, as there is one
beside each separator at an end of the title or next to another separator, is no word,
or it would meet every query.

Two tests never matter.  A title that begins with the query contains it
(`isPrefixOf_or_contains`).  A word meets the query by beginning with it or by standing in
it; a query that a word begins with stands in the title as well, and has been found by the
tier before (`infix_of_isPrefixOf`).
-/
import Mathlib.Data.List.Infix
import Matinee.Proofs.Text.Pieces
import Matinee.Search.Ranking

namespace Matinee.Search

/-- White space, a comma, a parenthesis or a hyphen. -/
def separates (c : Char) : Bool := Text.isBlank c || [',', '(', ')', '-'].contains c

/-- A longest run of characters that do not separate words, unless it is empty. -/
structure IsWord (title word : List Char) : Prop where
  ne_nil : word ≠ []
  run : Text.IsRun separates title word

variable {title query word : List Char}

theorem isWordBreak_eq : isWordBreak = separates := by
  funext c
  simp only [isWordBreak, separates, List.contains_cons, List.contains_nil, Bool.or_false,
    Bool.or_assoc]

theorem mem_words_iff : word ∈ words title ↔ IsWord title word := by
  rw [words, isWordBreak_eq, List.mem_filter, Text.mem_splitAt_iff]
  constructor
  · rintro ⟨hrun, hne⟩
    exact ⟨by simpa using hne, hrun⟩
  · rintro ⟨hne, hrun⟩
    exact ⟨hrun, by simpa using hne⟩

theorem IsWord.isInfix (h : IsWord title word) : word <:+: title := by
  obtain ⟨front, back, htitle, -, -⟩ := h.run.bounded
  exact ⟨front, back, htitle.symm⟩

theorem infix_of_isPrefixOf (hword : word ∈ words title) (h : query.isPrefixOf word = true) :
    query <:+: title :=
  (List.isPrefixOf_iff_prefix.mp h).isInfix.trans (mem_words_iff.mp hword).isInfix

theorem any_contains_iff :
    ((words title).any fun word => Text.contains query word) = true ↔
      ∃ word, IsWord title word ∧ word <:+: query := by
  simp only [List.any_eq_true, mem_words_iff, Text.contains_iff]

theorem isPrefixOf_or_contains (title query : List Char) :
    (query.isPrefixOf title || Text.contains title query) = Text.contains title query := by
  cases hbegins : query.isPrefixOf title with
  | false => rw [Bool.false_or]
  | true =>
      have hquery : query <:+: title := (List.isPrefixOf_iff_prefix.mp hbegins).isInfix
      rw [(Text.contains_iff title query).mpr hquery, Bool.or_true]

theorem any_words_eq (hquery : ¬ query <:+: title) :
    ((words title).any fun word => query.isPrefixOf word || Text.contains query word) =
      (words title).any fun word => Text.contains query word := by
  rw [Bool.eq_iff_iff, List.any_eq_true, List.any_eq_true]
  refine exists_congr fun word => and_congr_right fun hword => ?_
  have hnot : query.isPrefixOf word = false :=
    Bool.eq_false_iff.mpr fun h => hquery (infix_of_isPrefixOf hword h)
  rw [hnot, Bool.false_or]

theorem tier?_eq (title query : List Char) :
    tier? title query =
      if title = query then some .exact
      else if Text.contains title query then some .partly
      else if (words title).any fun word => Text.contains query word then some .fuzzy
      else none := by
  unfold tier?
  rw [isPrefixOf_or_contains]
  split
  · rfl
  · split
    · rfl
    · rename_i hnot
      rw [any_words_eq (mt (Text.contains_iff title query).mpr hnot)]

/-- How the tier of a title comes about, the tests read as what they mean. -/
inductive TierOf (title query : List Char) : Option Tier → Prop
  | exact : title = query → TierOf title query (some .exact)
  | partly : title ≠ query → query <:+: title → TierOf title query (some .partly)
  | fuzzy {word : List Char} : ¬ query <:+: title → IsWord title word → word <:+: query →
      TierOf title query (some .fuzzy)
  | none : ¬ query <:+: title → (∀ word, IsWord title word → ¬ word <:+: query) →
      TierOf title query none

theorem tierOf_tier? (title query : List Char) : TierOf title query (tier? title query) := by
  rw [tier?_eq]
  split
  · rename_i heq
    exact .exact heq
  · rename_i hne
    split
    · rename_i hquery
      exact .partly hne ((Text.contains_iff title query).mp hquery)
    · rename_i hquery
      rw [Text.contains_iff] at hquery
      split
      · rename_i hany
        obtain ⟨word, hword, hinfix⟩ := any_contains_iff.mp hany
        exact .fuzzy hquery hword hinfix
      · rename_i hnone
        refine .none hquery ?_
        intro word hword hinfix
        exact hnone (any_contains_iff.mpr ⟨word, hword, hinfix⟩)

theorem TierOf.unique {t u : Option Tier} (ht : TierOf title query t) (hu : TierOf title query u) :
    t = u := by
  cases ht <;> cases hu <;> grind

theorem tier?_eq_iff {t : Option Tier} : tier? title query = t ↔ TierOf title query t :=
  ⟨fun h => h ▸ tierOf_tier? title query, (tierOf_tier? title query).unique⟩

theorem exists_common_of_isWord (hword : IsWord title word) (h : word <:+: query) :
    ∃ c ∈ title, separates c = false ∧ c ∈ query := by
  obtain ⟨c, rest, rfl⟩ := List.exists_cons_of_ne_nil hword.ne_nil
  have hc : c ∈ c :: rest := List.mem_cons_self
  exact ⟨c, hword.isInfix.subset hc, hword.run.free c hc, h.subset hc⟩

/-- **Words decide the loosest tier.**  A title is met exactly if it is the query, partly
if it is not but the query stands in it, and loosely if the query does not stand in it
but one of its words stands in the query; otherwise it is not met.  Whether a word begins
with the query decides nothing, and separators alone, wherever they stand, meet no query. -/
theorem words_decide_tier (title query : List Char) :
    (tier? title query = some .exact ↔ title = query) ∧
      (tier? title query = some .partly ↔ title ≠ query ∧ query <:+: title) ∧
      (tier? title query = some .fuzzy ↔
        ¬ query <:+: title ∧ ∃ word, IsWord title word ∧ word <:+: query) ∧
      (tier? title query = none ↔
        ¬ query <:+: title ∧ ∀ word, IsWord title word → ¬ word <:+: query) ∧
      (tier? title query =
        if title = query then some .exact
        else if Text.contains title query then some .partly
        else if (words title).any fun word => Text.contains query word then some .fuzzy
        else none) ∧
      (tier? title query = some .fuzzy → ∃ c ∈ title, separates c = false ∧ c ∈ query) := by
  refine ⟨tier?_eq_iff.trans ?_, tier?_eq_iff.trans ?_, tier?_eq_iff.trans ?_,
    tier?_eq_iff.trans ?_, tier?_eq title query, fun h => ?_⟩
  · exact ⟨fun | .exact heq => heq, .exact⟩
  · exact ⟨fun | .partly hne hquery => ⟨hne, hquery⟩, fun h => .partly h.1 h.2⟩
  · exact ⟨fun | .fuzzy hquery hword hinfix => ⟨hquery, _, hword, hinfix⟩,
      fun ⟨hquery, _, hword, hinfix⟩ => .fuzzy hquery hword hinfix⟩
  · exact ⟨fun | .none hquery hnone => ⟨hquery, hnone⟩, fun h => .none h.1 h.2⟩
  · cases tier?_eq_iff.mp h with
    | fuzzy _ hword hinfix => exact exists_common_of_isWord hword hinfix

/-- A title with separators at its end and beside each other is met by a query that has its
word, and not by one that shares nothing but separators with it. -/
theorem words_decide_tier_separators :
    tier? "heat - (1995)".toList "the heat is on".toList = some .fuzzy ∧
      (∃ c ∈ "heat - (1995)".toList, separates c = false ∧ c ∈ "the heat is on".toList) ∧
      tier? "heat - (1995)".toList ", -)".toList = none := by
  have hwords : words "heat - (1995)".toList = ["heat".toList, "1995".toList] := by decide +kernel
  have hheat : IsWord "heat - (1995)".toList "heat".toList :=
    mem_words_iff.mp (hwords ▸ List.mem_cons_self)
  obtain ⟨-, -, hfuzzy, -, -, hcommon⟩ :=
    words_decide_tier "heat - (1995)".toList "the heat is on".toList
  obtain ⟨-, -, -, hnone, -⟩ := words_decide_tier "heat - (1995)".toList ", -)".toList
  have htier := hfuzzy.mpr ⟨by decide +kernel, _, hheat, by decide +kernel⟩
  refine ⟨htier, hcommon htier, hnone.mpr ⟨by decide +kernel, fun word hword => ?_⟩⟩
  rw [← mem_words_iff, hwords] at hword
  rcases List.mem_cons.mp hword with rfl | hword
  · decide +kernel
  · obtain rfl := List.mem_singleton.mp hword
    decide +kernel

end Matinee.Search
