import FlowGraph.Text.Basic

/-!
# Places in a text

The place of a character by its index, line and column, and the excerpt that shows
a place with a caret below it.  Only the line feed ends a line.

A place is given by the text from there on, a suffix of the whole text.
-/

namespace FlowGraph.Text

/-! ## Positions -/

/-- A place in a text. -/
structure Position where
  /-- The number of characters before it. -/
  index : Nat := 0
  /-- The number of its line, from one. -/
  line : Nat := 1
  /-- The number of its column, from one. -/
  column : Nat := 1
deriving DecidableEq, Repr

/-- The place behind a character. -/
def Position.next (p : Position) (c : Char) : Position :=
  if c = '\n' then ⟨p.index + 1, p.line + 1, 1⟩ else ⟨p.index + 1, p.line, p.column + 1⟩

/-- The part of a text before one of its suffixes. -/
def before (t rest : Text) : Text := t.take (t.length - rest.length)

/-- The place at which a suffix of a text starts. -/
def positionOf (t rest : Text) : Position := (before t rest).foldl Position.next {}

theorem before_append (s rest : Text) : before (s ++ rest) rest = s := by
  simp [before]

/-! ## Excerpts -/

/-- The number of blanks and other characters it takes to write a text from a column on,
with tab stops at every eighth column. -/
def expandedWidth : Nat → Text → Nat
  | _, [] => 0
  | column, c :: t =>
      if c = '\t' then (8 - column % 8) + expandedWidth (column + (8 - column % 8)) t
      else if c = '\n' ∨ c = '\r' then 1 + expandedWidth 0 t
      else 1 + expandedWidth (column + 1) t

/-- The last characters of a text, at most so many. -/
def takeLast (n : Nat) (t : Text) : Text := t.drop (t.length - n)

/-- The part of a text after its last line feed. -/
def lastLine (t : Text) : Text := (t.reverse.takeWhile (· ≠ '\n')).reverse

/-- The number of characters an excerpt shows on either side. -/
def excerptSpan : Nat := 40

/-- The line around the start of a suffix, and below it a caret at that place. -/
def excerpt (t rest : Text) : Text :=
  let left := lastLine (takeLast excerptSpan (before t rest))
  let right := (rest.take excerptSpan).takeWhile (· ≠ '\n')
  left ++ right ++ '\n' :: List.replicate (expandedWidth 0 left) ' ' ++ ['^', '\n']

end FlowGraph.Text
