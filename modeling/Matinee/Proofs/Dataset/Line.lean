/-
# `Matinee.Proofs.Dataset.Line` — cutting a file into chunks changes no line

A file may arrive cut anywhere, inside a character, inside a broken run of
octets, between a carriage return and its newline, or inside the header.  The
buffer decodes only up to the last newline that has arrived, so every cut it
makes itself lies behind an ASCII octet, where decoding may be cut
(`Text.Utf8.decodeLossy_append_ascii`) and so may the list of lines
(`Text.splitAt_append_sep`).

The invariant that carries the induction over the chunks ties three things
together: the octets put by hold no newline, the lines still to come are those
of these octets with all octets to come, and of those lines the header is still
to be taken off exactly if it has not gone by (`LineBuffer.go_eq`).
-/
import Matinee.Dataset.Line
import Matinee.Proofs.Text.Pieces
import Matinee.Proofs.Text.Utf8

namespace Matinee.Dataset

open Text (isAllBlank)
open Text.Utf8 (decodeLossy)

/-! ## Lines that hold something -/

theorem solidLines_append (a b : List (List Char)) :
    solidLines (a ++ b) = solidLines a ++ solidLines b := by
  simp [solidLines]

theorem solidLines_nil_line : solidLines [[]] = [] := rfl

/-- A carriage return is blank, so those at the end of a line do not matter. -/
theorem isAllBlank_stripReturns (line : List Char) :
    isAllBlank (stripReturns line) = isAllBlank line := by
  have hsplit := List.takeWhile_append_dropWhile (p := (· == '\r')) (l := line.reverse)
  have htake : (line.reverse.takeWhile (· == '\r')).all Text.isBlank = true := by
    refine List.all_eq_true.mpr fun c hc => ?_
    have hr : c = '\r' := by simpa using List.all_eq_true.mp List.all_takeWhile c hc
    rw [hr]
    rfl
  calc isAllBlank (stripReturns line)
      = (line.reverse.dropWhile (· == '\r')).all Text.isBlank := by
        simp [isAllBlank, stripReturns, Text.dropEndWhile]
    _ = line.reverse.all Text.isBlank := by
        rw [← hsplit, List.all_append, htake, Bool.true_and, hsplit]
    _ = isAllBlank line := by simp [isAllBlank]

theorem solidLines_drop_one {first : List Char} (h : isAllBlank first = false)
    (rest : List (List Char)) : (solidLines (first :: rest)).drop 1 = solidLines rest := by
  have hfirst : (!isAllBlank (stripReturns first)) = true := by
    rw [isAllBlank_stripReturns, h]
    rfl
  simp [solidLines, hfirst]

/-! ## Newlines in octets and in text -/

theorem splitLines_append_newline (a b : List UInt8) :
    splitLines (decodeLossy (a ++ 10 :: b)) =
      splitLines (decodeLossy a) ++ splitLines (decodeLossy b) := by
  rw [Text.Utf8.decodeLossy_append_ascii a (by decide) b]
  exact Text.splitAt_append_sep rfl _ _

theorem splitLines_decodeLossy_of_notMem {bytes : List UInt8} (h : 10 ∉ bytes) :
    splitLines (decodeLossy bytes) = [decodeLossy bytes] := by
  refine Text.splitAt_of_forall_not fun c hc => ?_
  refine beq_eq_false_iff_ne.mpr fun hnl => ?_
  subst hnl
  obtain ⟨b, hb, hcb⟩ := Text.Utf8.exists_mem_of_mem_decodeLossy hc (by decide) (by decide)
  have hb10 : b.toNat = 10 := by
    have hchar : (Char.ofNat b.toNat).toNat = 10 := by rw [← hcb]; rfl
    rwa [Text.Utf8.toNat_ofNat_of_ne (by rw [← hcb]; decide)] at hchar
  have hb' : b = 10 := UInt8.toNat_inj.mp hb10
  exact h (hb' ▸ hb)

namespace LineBuffer

/-! ## Taking off the header -/

theorem accept_append (seen : Bool) (a b : List (List Char)) :
    (accept seen (a ++ b)).1 = (accept seen a).1 ++ (accept (accept seen a).2 b).1 := by
  cases seen with
  | true => simp [accept, solidLines_append]
  | false =>
      cases ha : solidLines a with
      | nil => simp [accept, solidLines_append, ha]
      | cons line lines => simp [accept, solidLines_append, ha]

theorem accept_append_nil_line (seen : Bool) (a : List (List Char)) :
    accept seen (a ++ [[]]) = accept seen a := by
  simp [accept, solidLines_append, solidLines_nil_line]

theorem toList_head?_accept_singleton (seen : Bool) (line : List Char) :
    (accept seen [line]).1.head?.toList = (accept seen [line]).1 := by
  cases seen <;> by_cases h : isAllBlank (stripReturns line) = true <;>
    simp [accept, solidLines, h]

/-! ## The run over the chunks -/

/-- The octets that have arrived, newest first, cut at the last newline. -/
theorem exists_last_newline {back : List UInt8} (h : 10 ∈ back) :
    ∃ new old : List UInt8, 10 ∉ new ∧ back = new ++ 10 :: old ∧
      back.takeWhile (· != 10) = new ∧ back.dropWhile (· != 10) = 10 :: old := by
  obtain ⟨new, old, hback, hnew⟩ := List.eq_append_cons_of_mem h
  have hne : ∀ b ∈ new, (b != 10) = true := fun b hb =>
    bne_iff_ne.mpr fun hb10 => hnew (hb10 ▸ hb)
  refine ⟨new, old, hnew, hback, ?_, ?_⟩
  · rw [hback, List.takeWhile_append_of_pos hne, List.takeWhile_cons_of_neg (by decide),
      List.append_nil]
  · rw [hback, List.dropWhile_append_of_pos hne, List.dropWhile_cons_of_neg (by decide)]

/-- A chunk with a newline completes the lines up to it. -/
theorem push_of_mem {b : LineBuffer} {chunk : List UInt8} (h : 10 ∈ chunk) :
    ∃ new old : List UInt8, 10 ∉ new ∧ b.pending.reverse ++ chunk = old ++ 10 :: new ∧
      b.push chunk =
        ((accept b.headerSeen (splitLines (decodeLossy old))).1,
          ⟨new.reverse, (accept b.headerSeen (splitLines (decodeLossy old))).2⟩) := by
  have hback : 10 ∈ chunk.reverse ++ b.pending :=
    List.mem_append_left _ (List.mem_reverse.mpr h)
  obtain ⟨new, old, hnew, hcut, htake, hdrop⟩ := exists_last_newline hback
  have hlines : splitLines (decodeLossy (10 :: old).reverse) =
      splitLines (decodeLossy old.reverse) ++ [[]] := by
    rw [List.reverse_cons]
    exact splitLines_append_newline old.reverse []
  refine ⟨new.reverse, old.reverse, by simpa using hnew, ?_, ?_⟩
  · simpa using congrArg List.reverse hcut
  · simp only [push, List.contains_iff_mem.mpr h, if_true, htake, hdrop, hlines,
      accept_append_nil_line, List.reverse_reverse]

/-- From any buffer that holds no newline: what is still to come of a file are the
data lines of the octets put by and of all octets to come. -/
theorem go_eq {b : LineBuffer} (hb : 10 ∉ b.pending) (chunks : List (List UInt8)) :
    linesOf.go b chunks =
      (accept b.headerSeen
        (splitLines (decodeLossy (b.pending.reverse ++ chunks.flatten)))).1 := by
  induction chunks generalizing b with
  | nil =>
      have hpending : 10 ∉ b.pending.reverse := by simpa using hb
      rw [linesOf.go, finish, List.flatten_nil, List.append_nil,
        splitLines_decodeLossy_of_notMem hpending, toList_head?_accept_singleton]
  | cons chunk chunks ih =>
      rw [linesOf.go, List.flatten_cons, ← List.append_assoc]
      by_cases hmem : 10 ∈ chunk
      · obtain ⟨new, old, hnew, hcut, hpush⟩ := push_of_mem (b := b) hmem
        have hnew' : 10 ∉ new.reverse := by simpa using hnew
        simp only [hpush]
        rw [ih hnew', hcut, List.append_assoc, List.cons_append, splitLines_append_newline,
          accept_append, List.reverse_reverse]
      · have hback : 10 ∉ chunk.reverse ++ b.pending := by simp [hmem, hb]
        have hpush : b.push chunk = ([], { b with pending := chunk.reverse ++ b.pending }) := by
          simp [push, hmem]
        simp only [hpush, List.nil_append]
        rw [ih hback]
        simp

/-- However a file is cut into chunks, its data lines are the solid lines of the
whole text without the first; so any two ways of cutting give the same lines.
Where the first line holds something, they are the data lines of the text. -/
theorem linesOf_eq_solidLines (chunks : List (List UInt8)) :
    linesOf chunks = (solidLines (splitLines (decodeLossy chunks.flatten))).drop 1 ∧
      (∀ others : List (List UInt8), others.flatten = chunks.flatten →
        linesOf others = linesOf chunks) ∧
      (∀ first rest, splitLines (decodeLossy chunks.flatten) = first :: rest →
        isAllBlank first = false → linesOf chunks = dataLines (decodeLossy chunks.flatten)) := by
  have hlines (cs : List (List UInt8)) :
      linesOf cs = (solidLines (splitLines (decodeLossy cs.flatten))).drop 1 := by
    have hgo := go_eq (b := empty) List.not_mem_nil cs
    simpa [linesOf, empty, accept] using hgo
  refine ⟨hlines chunks, ?_, ?_⟩
  · intro others hsame
    rw [hlines others, hlines chunks, hsame]
  · intro first rest hsplit hfirst
    rw [hlines chunks, dataLines, hsplit, solidLines_drop_one hfirst, List.drop_one, List.tail_cons]

/-- The header and an accent are cut, the end of a line too, and a broken octet
stands in the second data line. -/
theorem linesOf_eq_solidLines_cut :
    linesOf [[104], [], [10, 195], [169, 13], [10, 255], [65]] = [['é'], ['\uFFFD', 'A']] ∧
      linesOf [[104, 10, 195, 169], [13, 10, 255, 65]] = [['é'], ['\uFFFD', 'A']] ∧
      splitLines (decodeLossy [104, 10, 195, 169, 13, 10, 255, 65]) =
        ['h'] :: [['é', '\r'], ['\uFFFD', 'A']] ∧
      isAllBlank ['h'] = false ∧
      linesOf [[104], [], [10, 195], [169, 13], [10, 255], [65]] =
        dataLines (decodeLossy [104, 10, 195, 169, 13, 10, 255, 65]) := by
  have h := linesOf_eq_solidLines [[104], [], [10, 195], [169, 13], [10, 255], [65]]
  have hlines : linesOf [[104], [], [10, 195], [169, 13], [10, 255], [65]] =
      [['é'], ['\uFFFD', 'A']] := h.1.trans (by decide +kernel)
  have hsplit : splitLines (decodeLossy [104, 10, 195, 169, 13, 10, 255, 65]) =
      ['h'] :: [['é', '\r'], ['\uFFFD', 'A']] := by decide +kernel
  exact ⟨hlines, (h.2.1 [[104, 10, 195, 169], [13, 10, 255, 65]] rfl).trans hlines, hsplit,
    by decide, h.2.2 ['h'] [['é', '\r'], ['\uFFFD', 'A']] hsplit (by decide)⟩

end LineBuffer

end Matinee.Dataset
