/-!
# Texts

A *text* is the sequence of its characters.  Every string the library reads,
holds or writes is one, so that readers and writers recurse on it directly.

`lit` gives the text of a string literal.  It is a definition of its own and
not `String.toList`, since unfolding the latter decodes the bytes of the
literal.

Four operations serve all readers and writers.  `substitute` replaces every
occurrence of a character, and it distributes over concatenation
(`substitute_append`).  `unlines` ends every text of a list with a line break.
`notAfter` is the order of the dictionary, by code point.  `trim` takes the blanks
off the two ends of a text; blank are the blank characters of Unicode, together with
the four separators U+001C to U+001F.
-/

namespace FlowGraph

/-- A text: its characters, first to last. -/
abbrev Text := List Char

/-- The text a string literal stands for. -/
def lit (s : String) : Text := s.toList

namespace Text

/-! ## Replacing a character -/

/-- The text with every `c` replaced by `w`. -/
def substitute (c : Char) (w : Text) (t : Text) : Text :=
  t.flatMap fun d => if d = c then w else [d]

@[simp] theorem substitute_nil (c : Char) (w : Text) : substitute c w [] = [] := rfl

theorem substitute_cons (c : Char) (w : Text) (d : Char) (t : Text) :
    substitute c w (d :: t) = (if d = c then w else [d]) ++ substitute c w t := by
  simp [substitute]

@[simp] theorem substitute_append (c : Char) (w : Text) (s t : Text) :
    substitute c w (s ++ t) = substitute c w s ++ substitute c w t := by
  simp [substitute]

/-- A character that does not occur is not replaced. -/
theorem substitute_of_not_mem {c : Char} {w t : Text} (h : c ∉ t) : substitute c w t = t := by
  induction t with
  | nil => rfl
  | cons d t ih =>
      have other : d ≠ c := fun same => h (same ▸ List.mem_cons_self)
      rw [substitute_cons, if_neg other, ih fun mem => h (List.mem_cons_of_mem d mem)]
      rfl

/-! ## Lines -/

/-- The texts in order, each ended by a line break. -/
def unlines (ts : List Text) : Text := ts.flatMap (· ++ ['\n'])

@[simp] theorem unlines_nil : unlines [] = [] := rfl

@[simp] theorem unlines_cons (t : Text) (ts : List Text) :
    unlines (t :: ts) = t ++ '\n' :: unlines ts := by
  simp [unlines]

/-! ## Order -/

/-- Whether the first text is the second or stands before it in the order of the
dictionary. -/
def notAfter : Text → Text → Bool
  | [], _ => true
  | _ :: _, [] => false
  | c :: s, d :: t => c.toNat < d.toNat || (c = d && notAfter s t)

/-! ## Blank characters -/

/-- The blank characters as ranges of code points, both ends included. -/
def blankRanges : List (Nat × Nat) :=
  [(0x09, 0x0D), (0x1C, 0x20), (0x85, 0x85), (0xA0, 0xA0), (0x1680, 0x1680),
   (0x2000, 0x200A), (0x2028, 0x2029), (0x202F, 0x202F), (0x205F, 0x205F), (0x3000, 0x3000)]

/-- Whether the character is blank. -/
def isBlank (c : Char) : Bool := blankRanges.any fun r => r.1 ≤ c.toNat && c.toNat ≤ r.2

/-- The text without the blanks at its start and at its end. -/
def trim (t : Text) : Text :=
  ((t.dropWhile isBlank).reverse.dropWhile isBlank).reverse

end Text

end FlowGraph
