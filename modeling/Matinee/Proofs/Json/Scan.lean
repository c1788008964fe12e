/-
# `Matinee.Proofs.Json.Scan` — a quoted text is one token

What `Json.quoted` writes shows its own end, so its token is settled whatever stands
behind it.  Each escape leads the scanner back to where no escape is open, and
between two of them a character stands for itself.
-/
import Matinee.Json.Basic
import Matinee.Json.Decode

namespace Matinee.Json

/-- Reads some characters. -/
def Document.State.feed (st : Document.State) (s : List Char) : Document.State :=
  (s.map some).foldl Document.State.step st

namespace Document.State

@[simp]
theorem feed_nil (st : Document.State) : st.feed [] = st := rfl

theorem feed_cons (st : Document.State) (c : Char) (s : List Char) :
    st.feed (c :: s) = (st.step (some c)).feed s := rfl

theorem feed_append (st : Document.State) (s t : List Char) :
    st.feed (s ++ t) = (st.feed s).feed t := by
  simp [feed, List.foldl_append]

theorem step_silent {scan scan' : Scan.State} {c : Char} (h : Scan.step scan (some c) = (scan', []))
    (b : Builder) : State.step ⟨scan, b⟩ (some c) = ⟨scan', b⟩ := by
  simp [State.step, h]

end Document.State

open Document.State (feed_cons feed_append step_silent)

/-! ## Quoted texts -/

/-- A quoted text in which nothing is left open, its characters newest first. -/
def Scan.Quotation.plain (out : List Char) : Scan.Quotation := ⟨out, true, none, .none⟩

theorem hexValue?_hexDigit {d : Nat} (h : d < 16) : Scan.hexValue? (hexDigit d) = some d := by
  have hall : ∀ d < 16, Scan.hexValue? (hexDigit d) = some d := by decide
  exact hall d h

theorem step_plain {c : Char} (hq : c ≠ '"') (hs : c ≠ '\\') (hc : ¬ c.toNat < 0x20)
    (out : List Char) :
    Scan.step (.quotation (.plain out)) (some c) = (.quotation (.plain (c :: out)), []) := by
  simp [Scan.step, Scan.quote, Scan.Quotation.plain, Scan.Quotation.push, hq, hs, hc]

theorem feed_escaped {e c : Char} (h : Scan.escaped? e = some c) (out : List Char) (b : Builder) :
    Document.State.feed ⟨.quotation (.plain out), b⟩ ['\\', e] =
      ⟨.quotation (.plain (c :: out)), b⟩ := by
  have hu : e ≠ 'u' := by
    rintro rfl
    have hnone : Scan.escaped? 'u' = none := by decide
    rw [hnone] at h
    cases h
  have hslash : Scan.step (.quotation (.plain out)) (some '\\') =
      (.quotation { Scan.Quotation.plain out with escape := .slash }, []) := rfl
  have hchar : Scan.step (.quotation { Scan.Quotation.plain out with escape := .slash }) (some e) =
      (.quotation (.plain (c :: out)), []) := by
    simp [Scan.step, Scan.quote, hu, h, Scan.Quotation.plain, Scan.Quotation.push]
  rw [feed_cons, step_silent hslash, feed_cons, step_silent hchar, Document.State.feed_nil]

theorem step_hex {out : List Char} {left value d : Nat} {x : Char} (hleft : 1 < left)
    (hx : Scan.hexValue? x = some d) :
    Scan.step (.quotation { Scan.Quotation.plain out with escape := .hex left value }) (some x) =
      (.quotation { Scan.Quotation.plain out with
        escape := .hex (left - 1) (value * 16 + d) }, []) := by
  simp [Scan.step, Scan.quote, hx, Nat.not_le.mpr hleft]

/-- The last digit of a code unit that is a character of its own. -/
theorem step_hex_last {out : List Char} {value d : Nat} {x c : Char}
    (hx : Scan.hexValue? x = some d) (hc : value * 16 + d = c.toNat) (hlow : c.toNat < 0xD800) :
    Scan.step (.quotation { Scan.Quotation.plain out with escape := .hex 1 value }) (some x) =
      (.quotation (.plain (c :: out)), []) := by
  have hhigh : ¬ (0xD800 ≤ c.toNat ∧ c.toNat ≤ 0xDBFF) := by omega
  have hpair : ¬ (0xDC00 ≤ c.toNat ∧ c.toNat ≤ 0xDFFF) := by omega
  simp only [Scan.step, Scan.quote, hx, Nat.le_refl, if_true, hc, Scan.Quotation.pushUnit,
    if_neg hhigh, if_neg hpair, Char.ofNat_toNat]
  rfl

theorem feed_control {c : Char} (h : c.toNat < 0x20) (out : List Char) (b : Builder) :
    Document.State.feed ⟨.quotation (.plain out), b⟩
        ['\\', 'u', '0', '0', hexDigit (c.toNat / 16), hexDigit (c.toNat % 16)] =
      ⟨.quotation (.plain (c :: out)), b⟩ := by
  have hslash : Scan.step (.quotation (.plain out)) (some '\\') =
      (.quotation { Scan.Quotation.plain out with escape := .slash }, []) := rfl
  have hu : Scan.step (.quotation { Scan.Quotation.plain out with escape := .slash }) (some 'u') =
      (.quotation { Scan.Quotation.plain out with escape := .hex 4 0 }, []) := rfl
  have hzero : Scan.hexValue? '0' = some 0 := by decide
  have hhigh := hexValue?_hexDigit (d := c.toNat / 16) (by omega)
  have hlow := hexValue?_hexDigit (d := c.toNat % 16) (by omega)
  rw [feed_cons, step_silent hslash, feed_cons, step_silent hu,
    feed_cons, step_silent (step_hex (by decide) hzero),
    feed_cons, step_silent (step_hex (by decide) hzero),
    feed_cons, step_silent (step_hex (by decide) hhigh),
    feed_cons, step_silent (step_hex_last (c := c) hlow (by omega) (by omega)),
    Document.State.feed_nil]

theorem feed_escapeChar (c : Char) (out : List Char) (b : Builder) :
    Document.State.feed ⟨.quotation (.plain out), b⟩ (escapeChar c) =
      ⟨.quotation (.plain (c :: out)), b⟩ := by
  unfold escapeChar
  split
  · subst c
    exact feed_escaped rfl out b
  split
  · subst c
    exact feed_escaped rfl out b
  split
  · subst c
    exact feed_escaped rfl out b
  split
  · subst c
    exact feed_escaped rfl out b
  split
  · subst c
    exact feed_escaped rfl out b
  split
  · subst c
    exact feed_escaped rfl out b
  split
  · subst c
    exact feed_escaped rfl out b
  split
  · rename_i h
    exact feed_control h out b
  · rename_i hq hs _ _ _ _ _ hc
    rw [feed_cons, step_silent (step_plain hq hs hc out), Document.State.feed_nil]

theorem feed_escapeChars (s out : List Char) (b : Builder) :
    Document.State.feed ⟨.quotation (.plain out), b⟩ (s.flatMap escapeChar) =
      ⟨.quotation (.plain (s.reverse ++ out)), b⟩ := by
  induction s generalizing out with
  | nil => rfl
  | cons c s ih =>
      rw [List.flatMap_cons, feed_append, feed_escapeChar, ih]
      simp

/-- A quoted text is one token, whatever stands behind it. -/
theorem feed_quoted (s : String) (b : Builder) :
    Document.State.feed ⟨.between, b⟩ (quoted s) =
      ⟨.between, b.add (.scalar (.text (some s)))⟩ := by
  have hopen : Scan.step .between (some '"') = (.quotation (.plain []), []) := rfl
  rw [quoted, feed_cons, step_silent hopen, feed_append, feed_escapeChars]
  simp [feed_cons, Document.State.step, Scan.step, Scan.quote, Scan.Quotation.plain,
    Scan.Quotation.token]

end Matinee.Json
