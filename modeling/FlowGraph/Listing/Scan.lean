import FlowGraph.Listing.Token

/-!
# Scanning

`skip` leaves out blanks and comments, and `scan` reads one token of the terminals
allowed at that point.

Where names are allowed a word is read whole.  It is a keyword if it is one that is
allowed too, and a name otherwise.  Where names are not allowed, a keyword is read
off the front of a word, whatever follows it.

`scan` consumes at least one character (`length_scan_lt`) and `skip` adds none
(`length_skip_le`), so reading a text token by token ends.
-/

namespace FlowGraph.Listing

/-! ## Blanks and comments -/

/-- The characters that separate tokens. -/
def isSpace (c : Char) : Bool := c ∈ [' ', '\t', '\x0c', '\r', '\n']

/-- The text after its leading blanks and comments.  The flag says that the text starts
within a comment, which ends at the line break. -/
def skip : Bool → Text → Text
  | _, [] => []
  | true, c :: t => if c = '\n' then skip false t else skip true t
  | false, c :: t => if isSpace c then skip false t else if c = '#' then skip true t else c :: t

theorem length_skip_le : ∀ (inComment : Bool) (t : Text), (skip inComment t).length ≤ t.length
  | true, [] => by simp [skip]
  | false, [] => by simp [skip]
  | true, c :: t => by
      simp only [skip]
      split <;> exact Nat.le_succ_of_le (length_skip_le _ t)
  | false, c :: t => by
      simp only [skip]
      split
      · exact Nat.le_succ_of_le (length_skip_le _ t)
      · split
        · exact Nat.le_succ_of_le (length_skip_le _ t)
        · exact Nat.le_refl _

/-! ## Strings -/

/-- The body of a string up to the first quote on the line with an even number of
backslashes right before it, and the text after that quote.  The flag says that an odd
number of backslashes stands right before the text. -/
def scanBody : Bool → Text → Option (Text × Text)
  | _, [] => none
  | odd, c :: t =>
      if c = '\n' then none
      else if c = '"' && !odd then some ([], t)
      else (scanBody (c = '\\' && !odd) t).map fun r => (c :: r.1, r.2)

theorem length_scanBody_lt : ∀ {odd : Bool} {t body rest : Text},
    scanBody odd t = some (body, rest) → rest.length < t.length
  | _, [], _, _, h => by simp [scanBody] at h
  | odd, c :: t, body, rest, h => by
      rw [scanBody] at h
      split at h
      · simp at h
      · split at h
        · simp only [Option.some.injEq, Prod.mk.injEq] at h
          simp [h.2]
        · obtain ⟨⟨b, r⟩, hr, he⟩ := Option.map_eq_some_iff.1 h
          simp only [Prod.mk.injEq] at he
          have := length_scanBody_lt hr
          rw [List.length_cons, ← he.2]
          omega

/-! ## Words -/

/-- The characters a name may start with. -/
def isNameStart (c : Char) : Bool := c.isAlpha || c = '_'

/-- The characters a name may go on with. -/
def isNameChar (c : Char) : Bool := c.isAlphanum || c = '_'

theorem isNameChar_of_isNameStart {c : Char} (h : isNameStart c = true) : isNameChar c = true := by
  simp only [isNameStart, isNameChar, Char.isAlphanum, Bool.or_eq_true] at h ⊢
  rcases h with h | h
  · exact Or.inl (Or.inl h)
  · exact Or.inr h

/-- The terminal of a whole word: an allowed keyword, or else a name. -/
def wordTerminal (allowed : Terminal → Bool) (w : Text) : Terminal :=
  match Keyword.all.find? fun k => k.word = w && allowed (.keyword k) with
  | some k => .keyword k
  | none => .name

/-- Reads an allowed keyword off the front of a text. -/
def scanKeyword (allowed : Terminal → Bool) (t : Text) : Option (Token × Text) :=
  (Keyword.all.find? fun k => allowed (.keyword k) && k.word.isPrefixOf t).map fun k =>
    (⟨.keyword k, k.word⟩, t.drop k.word.length)

/-- Reads a name or keyword off the front of a text that starts with a word. -/
def scanWord (allowed : Terminal → Bool) (t : Text) : Option (Token × Text) :=
  if allowed .name then
    let w := t.takeWhile isNameChar
    some (⟨wordTerminal allowed w, w⟩, t.dropWhile isNameChar)
  else scanKeyword allowed t

/-- Reads an allowed sign off the front of a text. -/
def scanSign (allowed : Terminal → Bool) (t : Text) : Option (Token × Text) :=
  (Terminal.signs.find? fun s => allowed s.1 && s.2.isPrefixOf t).map fun s =>
    (⟨s.1, s.2⟩, t.drop s.2.length)

/-! ## Tokens -/

/-- Reads an allowed token off the front of a text. -/
def scan (allowed : Terminal → Bool) : Text → Option (Token × Text)
  | [] => none
  | c :: t =>
      if c = '"' then
        if allowed .string then
          (scanBody false t).map fun r => (⟨.string, '"' :: r.1 ++ ['"']⟩, r.2)
        else none
      else if c.isDigit then
        if allowed .int then
          some (⟨.int, (c :: t).takeWhile Char.isDigit⟩, (c :: t).dropWhile Char.isDigit)
        else none
      else if isNameStart c then scanWord allowed (c :: t)
      else scanSign allowed (c :: t)

theorem length_dropWhile_lt {p : Char → Bool} {c : Char} {t : Text} (h : p c = true) :
    ((c :: t).dropWhile p).length < (c :: t).length := by
  rw [List.dropWhile_cons_of_pos h, List.length_cons]
  exact Nat.lt_succ_of_le (List.dropWhile_sublist p).length_le

theorem word_ne_nil (k : Keyword) : k.word ≠ [] := by cases k <;> decide +kernel

theorem sign_ne_nil : ∀ s ∈ Terminal.signs, s.2 ≠ [] := by decide

theorem length_drop_lt {w t : Text} (hw : w ≠ []) (h : w.isPrefixOf t = true) :
    (t.drop w.length).length < t.length := by
  have hle := (List.isPrefixOf_iff_prefix.1 h).length_le
  have hpos := List.length_pos_iff.2 hw
  rw [List.length_drop]
  omega

theorem length_scanWord_lt {allowed : Terminal → Bool} {c : Char} {t rest : Text} {tok : Token}
    (hc : isNameStart c = true) (h : scanWord allowed (c :: t) = some (tok, rest)) :
    rest.length < (c :: t).length := by
  unfold scanWord at h
  split at h
  · simp only [Option.some.injEq, Prod.mk.injEq] at h
    rw [← h.2]
    exact length_dropWhile_lt (isNameChar_of_isNameStart hc)
  · unfold scanKeyword at h
    obtain ⟨k, hk, he⟩ := Option.map_eq_some_iff.1 h
    have hp := List.find?_some hk
    simp only [Bool.and_eq_true] at hp
    simp only [Prod.mk.injEq] at he
    rw [← he.2]
    exact length_drop_lt (word_ne_nil k) hp.2

theorem length_scanSign_lt {allowed : Terminal → Bool} {t rest : Text} {tok : Token}
    (h : scanSign allowed t = some (tok, rest)) : rest.length < t.length := by
  unfold scanSign at h
  obtain ⟨s, hs, he⟩ := Option.map_eq_some_iff.1 h
  have hp := List.find?_some hs
  simp only [Bool.and_eq_true] at hp
  simp only [Prod.mk.injEq] at he
  rw [← he.2]
  exact length_drop_lt (sign_ne_nil s (List.mem_of_find?_eq_some hs)) hp.2

theorem length_scan_lt {allowed : Terminal → Bool} : ∀ {t rest : Text} {tok : Token},
    scan allowed t = some (tok, rest) → rest.length < t.length
  | [], _, _, h => by simp [scan] at h
  | c :: t, rest, tok, h => by
      rw [scan] at h
      split at h
      · split at h
        · obtain ⟨⟨b, r⟩, hr, he⟩ := Option.map_eq_some_iff.1 h
          simp only [Prod.mk.injEq] at he
          have := length_scanBody_lt hr
          rw [List.length_cons, ← he.2]
          omega
        · simp at h
      · split at h
        · next hd =>
          split at h
          · simp only [Option.some.injEq, Prod.mk.injEq] at h
            rw [← h.2]
            exact length_dropWhile_lt hd
          · simp at h
        · split at h
          · next hw => exact length_scanWord_lt hw h
          · exact length_scanSign_lt h

end FlowGraph.Listing
