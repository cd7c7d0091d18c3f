import FlowGraph.Text.Position
import Mathlib.Data.List.Induction

/-!
# Lines and columns

`Position.Behind` says what a place is by counting in the text before it, and
`behind_positionOf` that the places which are reported are those.

If other lines stand before a text, its places move down by those lines (`positionOf_below`),
and an excerpt around a place stays the same (`excerpt_below`).
-/

namespace FlowGraph.Text

/-- Whether a place is the one behind some text. -/
structure Position.Behind (p : Position) (t : Text) : Prop where
  /-- The index counts the characters. -/
  index_eq : p.index = t.length
  /-- The line counts the line feeds. -/
  line_eq : p.line = t.count '\n' + 1
  /-- The column counts the characters behind the last line feed. -/
  column_eq : p.column = (lastLine t).length + 1

theorem lastLine_concat (t : Text) (c : Char) :
    lastLine (t ++ [c]) = if c = '\n' then [] else lastLine t ++ [c] := by
  unfold lastLine
  rw [List.reverse_append, List.reverse_singleton, List.singleton_append]
  by_cases h : c = '\n'
  · simp [h]
  · simp [h]

theorem Position.Behind.next {p : Position} {t : Text} (h : p.Behind t) (c : Char) :
    (p.next c).Behind (t ++ [c]) := by
  obtain ⟨index, line, column⟩ := h
  unfold Position.next
  by_cases feed : c = '\n'
  · rw [if_pos feed]
    exact ⟨by simp [index], by simp [line, feed], by simp [lastLine_concat, feed]⟩
  · rw [if_neg feed]
    exact ⟨by simp [index], by simp [line, feed], by simp [lastLine_concat, feed, column]⟩

theorem behind_foldl {p : Position} {s : Text} (h : p.Behind s) (t : Text) :
    (t.foldl Position.next p).Behind (s ++ t) := by
  induction t generalizing p s with
  | nil => simpa using h
  | cons c t ih => simpa using ih (h.next c)

/-- The place at which the rest of a text starts is behind what stands before it. -/
theorem behind_positionOf (s rest : Text) : (positionOf (s ++ rest) rest).Behind s := by
  have start : Position.Behind {} [] := ⟨rfl, rfl, rfl⟩
  unfold positionOf
  rw [before_append]
  exact behind_foldl start s

/-! ## Below other lines -/

/-- The place that a place in a text gets if the text starts on the line below another. -/
def Position.below (front : Text) (p : Position) : Position :=
  ⟨p.index + (front.length + 1), p.line + (front.count '\n' + 1), p.column⟩

theorem Position.next_below (front : Text) (p : Position) (c : Char) :
    (p.below front).next c = (p.next c).below front := by
  unfold Position.next
  split
  · simp only [below, Position.mk.injEq, and_true]
    omega
  · simp only [below, Position.mk.injEq, and_true]
    omega

theorem Position.foldl_next_below (front s : Text) (p : Position) :
    s.foldl next (p.below front) = (s.foldl next p).below front := by
  induction s generalizing p with
  | nil => rfl
  | cons c s ih => rw [List.foldl_cons, List.foldl_cons, next_below, ih]

/-- A line starts below the lines before it. -/
theorem foldl_next_line (front : Text) :
    (front ++ ['\n']).foldl Position.next {} = Position.below front {} := by
  have start : Position.Behind {} [] := ⟨rfl, rfl, rfl⟩
  obtain ⟨index, line, column⟩ := behind_foldl start (front ++ ['\n'])
  rw [List.nil_append] at index line column
  generalize (front ++ ['\n']).foldl Position.next {} = p at index line column ⊢
  obtain ⟨i, l, c⟩ := p
  simp only [lastLine_concat, if_true, List.length_append, List.count_append] at index line column
  simp [Position.below, index, line, column, Nat.add_comm]

theorem before_below (front s rest : Text) :
    before (front ++ '\n' :: (s ++ rest)) rest = (front ++ ['\n']) ++ s := by
  have whole : front ++ '\n' :: (s ++ rest) = ((front ++ ['\n']) ++ s) ++ rest := by simp
  rw [whole, before_append]

theorem positionOf_below (front : Text) {text rest : Text} (h : rest <:+ text) :
    positionOf (front ++ '\n' :: text) rest = (positionOf text rest).below front := by
  obtain ⟨s, rfl⟩ := h
  unfold positionOf
  rw [before_below, before_append, List.foldl_append, foldl_next_line,
    Position.foldl_next_below]

theorem lastLine_below (front s : Text) : lastLine (front ++ '\n' :: s) = lastLine s := by
  induction s using List.reverseRecOn with
  | nil =>
      rw [lastLine_concat, if_pos rfl]
      rfl
  | append_singleton s c ih =>
      rw [← List.cons_append, ← List.append_assoc, lastLine_concat, lastLine_concat, ih]

/-- Of the last characters of a text none before its last line matter to that line. -/
theorem lastLine_takeLast_below (n : Nat) (front s : Text) :
    lastLine (takeLast n (front ++ '\n' :: s)) = lastLine (takeLast n s) := by
  unfold takeLast
  by_cases fits : n ≤ s.length
  · have cut : (front ++ '\n' :: s).length - n = (front ++ ['\n']).length + (s.length - n) := by
      simp only [List.length_append, List.length_cons, List.length_nil]
      omega
    have whole : front ++ '\n' :: s = (front ++ ['\n']) ++ s := by simp
    rw [cut, whole, ← List.drop_drop, List.drop_left]
  · have cut : (front ++ '\n' :: s).length - n ≤ front.length := by
      simp only [List.length_append, List.length_cons]
      omega
    have short : s.length - n = 0 := by omega
    rw [List.drop_append_of_le_length cut, lastLine_below, short, List.drop_zero]

theorem excerpt_below (front : Text) {text rest : Text} (h : rest <:+ text) :
    excerpt (front ++ '\n' :: text) rest = excerpt text rest := by
  obtain ⟨s, rfl⟩ := h
  have left : lastLine (takeLast excerptSpan (front ++ ['\n'] ++ s))
      = lastLine (takeLast excerptSpan s) := by
    rw [List.append_assoc]
    exact lastLine_takeLast_below excerptSpan front s
  unfold excerpt
  rw [before_below, before_append, left]

end FlowGraph.Text
