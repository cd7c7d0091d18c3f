import FlowGraph.Listing.Load
import FlowGraph.Proofs.Listing.Match

/-!
# Writing strings

`quoted` writes a text as a string of a listing.  It is the form of a string whatever the
text (`isStringBody_escaped`), and the text is read back from it (`unquote_quoted`).
-/

namespace FlowGraph.Listing

/-- What a character becomes between the quotes of a string. -/
def escapedChar (c : Char) : Text :=
  if c = '\n' then ['\\', 'n'] else if c = '\\' ∨ c = '"' then ['\\', c] else [c]

/-- A text as a string with its quotes. -/
def quoted (t : Text) : Text := '"' :: t.flatMap escapedChar ++ ['"']

theorem isStringBody_escaped (t : Text) : IsStringBody (t.flatMap escapedChar) := by
  induction t with
  | nil => exact .nil
  | cons c t ih =>
      rw [List.flatMap_cons, escapedChar]
      split
      · exact .escaped (by decide) ih
      · next hn =>
          split
          · exact .escaped hn ih
          · next hs =>
              rw [not_or] at hs
              exact .plain hs.2 hs.1 hn ih

theorem unescape_pair {c : Char} (hc : c ≠ '\n') (t : Text) :
    unescape ('\\' :: c :: t) = unescapeChar c :: unescape t := by
  rw [unescape, if_pos ⟨rfl, hc⟩]

theorem unescape_plain {c : Char} (hc : c ≠ '\\') (t : Text) :
    unescape (c :: t) = c :: unescape t := by
  cases t with
  | nil => rfl
  | cons d t => rw [unescape, if_neg (fun h => hc h.1)]

theorem unescape_escaped (t : Text) : unescape (t.flatMap escapedChar) = t := by
  induction t with
  | nil => rfl
  | cons c t ih =>
      rw [List.flatMap_cons, escapedChar]
      split
      · next hn =>
          show unescape ('\\' :: 'n' :: t.flatMap escapedChar) = _
          rw [unescape_pair (by decide), ih, hn]
          rfl
      · next hn =>
          split
          · next hs =>
              show unescape ('\\' :: c :: t.flatMap escapedChar) = _
              rw [unescape_pair hn, ih]
              rcases hs with rfl | rfl <;> rfl
          · next hs =>
              rw [not_or] at hs
              show unescape (c :: t.flatMap escapedChar) = _
              rw [unescape_plain hs.1, ih]

/-- A text is read back from the string written for it. -/
@[simp] theorem unquote_quoted (t : Text) : unquote (quoted t) = t := by
  unfold unquote quoted
  show unescape ((t.flatMap escapedChar ++ ['"']).dropLast) = t
  rw [List.dropLast_concat, unescape_escaped]

end FlowGraph.Listing
