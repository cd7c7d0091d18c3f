import Mathlib.Algebra.Group.Nat.Defs
import FlowGraph.Proofs.Dot.Heading
import FlowGraph.Proofs.Text.Blank
import FlowGraph.Text.Quoted

/-!
# Quoted texts and lists are read in one way

A quoted text ends at its own last quote whatever follows it, and no other text is quoted
like it (`quoted_append_inj`).  The reason is that what a character is written as can be read
from left to right (`QuotedAs.read`): behind a backslash a letter says how many
hexadecimal digits follow.

A list between brackets determines its values if each of them ends where a comma or a bracket
follows (`Delimited.list_injective`).  Integers and quoted texts do.
-/

namespace FlowGraph.Text

open Dot.Reading (hexValue hexValue_leftpad hexValue_hexadecimal isHexDigit signed_integer
  signed_offset)

/-! ## Characters -/

/-- The character that some hexadecimal digits at the start of a text stand for, and what
follows them. -/
def codeChar (width : Nat) (t : Text) : Char × Text :=
  (Char.ofNat (hexValue (t.take width)), t.drop width)

/-- What a backslash, a character and the text behind it stand for: one character, and the
text that follows it. -/
def escapedChar (c : Char) (t : Text) : Char × Text :=
  if c = 'n' then ('\n', t)
  else if c = 'r' then ('\r', t)
  else if c = 't' then ('\t', t)
  else if c = 'x' then codeChar 2 t
  else if c = 'u' then codeChar 4 t
  else if c = 'U' then codeChar 8 t
  else (c, t)

/-- The first character of the text that is quoted, and what follows it. -/
def quotedChar? : Text → Option (Char × Text)
  | [] => none
  | [c] => some (c, [])
  | c :: d :: t => some (if c = '\\' then escapedChar d t else (c, d :: t))

/-- Digits with zeros before them are read back. -/
theorem codeChar_leftpad {width : Nat} {c : Char} (pos : 0 < width) (lt : c.toNat < 16 ^ width)
    (t : Text) :
    codeChar width (List.leftpad width '0' (hexadecimal c.toNat) ++ t) = (c, t) := by
  have short : (hexadecimal c.toNat).length ≤ width :=
    (Nat.length_toDigits_le_iff (by decide) pos).2 lt
  have length : (List.leftpad width '0' (hexadecimal c.toNat)).length = width := by
    rw [List.length_leftpad, Nat.max_eq_left short]
  rw [codeChar, List.take_left' length, List.drop_left' length, hexValue_leftpad,
    hexValue_hexadecimal, Char.ofNat_toNat]

/-- Whether a character is one of the two quotes. -/
def IsQuote (q : Char) : Prop := q = '\'' ∨ q = '"'

theorem isQuote_quoteFor (t : Text) : IsQuote (quoteFor t) := by
  unfold quoteFor
  split
  · exact Or.inr rfl
  · exact Or.inl rfl

/-- How a character is written between quotes. -/
inductive QuotedAs (q c : Char) : Text → Prop
  /-- Behind a backslash, as itself or as a letter that stands for it. -/
  | pair {d : Char} : d ≠ '\n' → (∀ t, escapedChar d t = (c, t)) → QuotedAs q c ['\\', d]
  /-- As itself. -/
  | plain : c ≠ '\\' → c ≠ q → c ≠ '\n' → QuotedAs q c [c]
  /-- By its code point, behind a letter for the number of digits. -/
  | code {d : Char} (width : Nat) : d ≠ '\n' → (∀ t, escapedChar d t = codeChar width t) →
      0 < width → c.toNat < 16 ^ width →
      QuotedAs q c ('\\' :: d :: List.leftpad width '0' (hexadecimal c.toNat))

theorem quotedAs_codePoint (q c : Char) : QuotedAs q c (codePoint c.toNat) := by
  have valid : c.toNat < 0xD800 ∨ 0xDFFF < c.toNat ∧ c.toNat < 0x110000 := c.valid
  unfold codePoint
  split
  · exact .code 2 (by decide) (fun _ => rfl) (by decide) (by omega)
  · split
    · exact .code 4 (by decide) (fun _ => rfl) (by decide) (by omega)
    · exact .code 8 (by decide) (fun _ => rfl) (by decide) (by omega)

theorem quotedAs_quotedChar {q : Char} (hq : IsQuote q) (c : Char) :
    QuotedAs q c (quotedChar q c) := by
  unfold quotedChar
  split
  · next marked =>
      have mark : c = '\'' ∨ c = '"' ∨ c = '\\' := by
        rcases marked with rfl | rfl
        · exact hq.imp id Or.inl
        · exact Or.inr (Or.inr rfl)
      rcases mark with rfl | rfl | rfl <;> exact .pair (by decide) fun _ => rfl
  · next unmarked =>
      split
      · next line => exact .pair (by decide) fun _ => line ▸ rfl
      · next line =>
          split
          · next back => exact .pair (by decide) fun _ => back ▸ rfl
          · split
            · next tab => exact .pair (by decide) fun _ => tab ▸ rfl
            · split
              · exact .plain (unmarked ∘ Or.inr) (unmarked ∘ Or.inl) line
              · exact quotedAs_codePoint q c

/-- A quoted character is read back, whatever follows it. -/
theorem QuotedAs.read {q c : Char} {w : Text} (h : QuotedAs q c w) (t : Text) :
    quotedChar? (w ++ t) = some (c, t) := by
  cases h with
  | pair _ escaped => exact congrArg some (escaped t)
  | plain backslash _ _ => cases t <;> simp [quotedChar?, backslash]
  | code _ _ escaped pos lt =>
      exact congrArg some ((escaped _).trans (codeChar_leftpad pos lt t))

/-- No character is written as something that starts with the quote around it. -/
theorem QuotedAs.ne_quote {q c : Char} {w : Text} (h : QuotedAs q c w) (hq : IsQuote q)
    (s t : Text) : w ++ s ≠ q :: t := by
  have backslash : '\\' ≠ q := by rcases hq with rfl | rfl <;> decide
  cases h with
  | pair | code => exact fun same => backslash (List.cons.inj same).1
  | plain _ ne _ => exact fun same => ne (List.cons.inj same).1

theorem line_not_mem_leftpad_hexadecimal (width n : Nat) :
    '\n' ∉ List.leftpad width '0' (hexadecimal n) := by
  intro mem
  rcases List.mem_append.1 mem with zero | digit
  · exact absurd (List.eq_of_mem_replicate zero) (by decide)
  · exact absurd (Dot.Reading.isHexDigit_of_mem_hexadecimal digit) (by decide)

/-- A quoted character adds no line break. -/
theorem QuotedAs.line {q c : Char} {w : Text} (h : QuotedAs q c w) : '\n' ∉ w := by
  cases h with
  | pair ne _ => simp [ne.symm]
  | plain _ _ ne => simp [ne.symm]
  | code _ ne _ _ _ =>
      exact List.not_mem_cons_of_ne_of_not_mem (by decide)
        (List.not_mem_cons_of_ne_of_not_mem ne.symm (line_not_mem_leftpad_hexadecimal _ _))

/-! ## Quoted texts -/

theorem quotedChars_inj {q : Char} (hq : IsQuote q) {s t u v : Text}
    (h : s.flatMap (quotedChar q) ++ q :: u = t.flatMap (quotedChar q) ++ q :: v) :
    s = t ∧ u = v := by
  induction s generalizing t with
  | nil =>
      cases t with
      | nil => exact ⟨rfl, (List.cons.inj h).2⟩
      | cons d t =>
          rw [List.flatMap_cons, List.append_assoc] at h
          exact absurd h.symm ((quotedAs_quotedChar hq d).ne_quote hq _ _)
  | cons c s ih =>
      cases t with
      | nil =>
          rw [List.flatMap_cons, List.append_assoc] at h
          exact absurd h ((quotedAs_quotedChar hq c).ne_quote hq _ _)
      | cons d t =>
          simp only [List.flatMap_cons, List.append_assoc] at h
          have read := congrArg quotedChar? h
          rw [(quotedAs_quotedChar hq c).read, (quotedAs_quotedChar hq d).read] at read
          obtain ⟨rfl, rest⟩ := Prod.mk.inj (Option.some.inj read)
          obtain ⟨rfl, rfl⟩ := ih rest
          exact ⟨rfl, rfl⟩

/-- A quoted text ends where it ends and determines the text, whatever follows it. -/
theorem quoted_append_inj {s t u v : Text} (h : quoted s ++ u = quoted t ++ v) :
    s = t ∧ u = v := by
  have whole : ∀ a b : Text, quoted a ++ b
      = quoteFor a :: (a.flatMap (quotedChar (quoteFor a)) ++ quoteFor a :: b) := by
    intro a b
    simp [quoted]
  rw [whole, whole] at h
  obtain ⟨quote, rest⟩ := List.cons.inj h
  rw [← quote] at rest
  exact quotedChars_inj (isQuote_quoteFor s) rest

theorem line_not_mem_quoted (t : Text) : '\n' ∉ quoted t := by
  have hq := isQuote_quoteFor t
  have quote : '\n' ≠ quoteFor t := by rcases hq with eq | eq <;> rw [eq] <;> decide
  have chars : '\n' ∉ t.flatMap (quotedChar (quoteFor t)) := by
    intro mem
    obtain ⟨c, -, line⟩ := List.mem_flatMap.1 mem
    exact (quotedAs_quotedChar hq c).line line
  simp [quoted, quote, chars]

/-! ## Lists -/

/-- Whether a text goes on as a list does behind one of its values. -/
def EndsValue (t : Text) : Prop := t.head? = some ',' ∨ t.head? = some ']'

/-- Whether what is written for a value ends where a list goes on, and determines the value. -/
structure Delimited {α : Type} (w : α → Text) : Prop where
  /-- What is written for a value ends where a list goes on. -/
  inj : ∀ {a b r s}, EndsValue r → EndsValue s → w a ++ r = w b ++ s → a = b ∧ r = s
  /-- No value starts as a list ends. -/
  start : ∀ a t, w a ++ t ≠ [']']

section Lists

variable {α : Type} {w : α → Text}

theorem intercalate_cons (separator t : Text) (ts : List Text) :
    List.intercalate separator (t :: ts) = t ++ ts.flatMap (separator ++ ·) := by
  induction ts generalizing t with
  | nil => simp
  | cons u ts ih => simp [List.intercalate_cons_cons, ih]

/-- Only the last text decides how texts with a separator between them end. -/
theorem exists_intercalate_concat (separator : Text) (ts : List Text) :
    ∃ s, ∀ t, List.intercalate separator (ts ++ [t]) = s ++ t := by
  cases ts with
  | nil => exact ⟨[], fun t => by simp⟩
  | cons u ts =>
      refine ⟨u ++ (ts.flatMap (separator ++ ·) ++ separator), fun t => ?_⟩
      rw [List.cons_append, intercalate_cons]
      simp

/-- What stands in a list behind its first value. -/
def laterValues (w : α → Text) (as : List α) : Text :=
  as.flatMap (fun a => lit ", " ++ w a) ++ [']']

theorem endsValue_laterValues (as : List α) : EndsValue (laterValues w as) := by
  cases as with
  | nil => exact Or.inr rfl
  | cons a as => exact Or.inl rfl

theorem laterValues_cons (a : α) (as : List α) :
    laterValues w (a :: as) = ',' :: ' ' :: (w a ++ laterValues w as) := by
  simp [laterValues, lit]

theorem list_map_cons (a : α) (as : List α) :
    list ((a :: as).map w) = '[' :: (w a ++ laterValues w as) := by
  rw [list, List.map_cons, intercalate_cons, List.flatMap_map]
  simp [laterValues]

namespace Delimited

theorem laterValues_inj (hw : Delimited w) {as bs : List α}
    (h : laterValues w as = laterValues w bs) : as = bs := by
  induction as generalizing bs with
  | nil =>
      cases bs with
      | nil => rfl
      | cons b bs => rw [laterValues_cons] at h; cases h
  | cons a as ih =>
      cases bs with
      | nil => rw [laterValues_cons] at h; cases h
      | cons b bs =>
          rw [laterValues_cons, laterValues_cons] at h
          injection h with _ h
          injection h with _ h
          obtain ⟨rfl, rest⟩ := hw.inj (endsValue_laterValues as) (endsValue_laterValues bs) h
          rw [ih rest]

/-- A list determines its values. -/
theorem list_injective (hw : Delimited w) {as bs : List α}
    (h : list (as.map w) = list (bs.map w)) : as = bs := by
  cases as with
  | nil =>
      cases bs with
      | nil => rfl
      | cons b bs =>
          rw [list_map_cons] at h
          exact absurd (List.cons.inj h).2.symm (hw.start b _)
  | cons a as =>
      cases bs with
      | nil =>
          rw [list_map_cons] at h
          exact absurd (List.cons.inj h).2 (hw.start a _)
      | cons b bs =>
          rw [list_map_cons, list_map_cons] at h
          obtain ⟨rfl, rest⟩ := hw.inj (endsValue_laterValues as) (endsValue_laterValues bs)
            (List.cons.inj h).2
          rw [hw.laterValues_inj rest]

end Delimited

end Lists

/-- Quoted texts are told apart in a list. -/
theorem delimited_quoted : Delimited quoted where
  inj := fun _ _ h => quoted_append_inj h
  start := by
    intro a t same
    have first := (List.cons.inj same).1
    rcases isQuote_quoteFor a with eq | eq <;> rw [eq] at first <;> cases first

/-! ## Numbers -/

/-- A written integer ends with a digit. -/
theorem exists_integer_concat (z : Int) : ∃ t c, integer z = t ++ [c] ∧ c.isDigit = true := by
  obtain ⟨t, c, digits⟩ :=
    (List.eq_nil_or_concat' (natural z.natAbs)).resolve_left Nat.toDigits_ne_nil
  have digit : c.isDigit = true := isDigit_of_mem_natural (by rw [digits]; simp)
  refine ⟨Dot.Reading.sign z ++ t, c, ?_, digit⟩
  rw [Dot.Reading.integer_eq_sign, digits, List.append_assoc]

theorem integer_append_inj {y z : Int} {r s : Text} (hr : ∀ c ∈ r.head?, c.isDigit = false)
    (hs : ∀ c ∈ s.head?, c.isDigit = false) (h : integer y ++ r = integer z ++ s) :
    y = z ∧ r = s := by
  have read := congrArg (Dot.Reading.signed Char.isDigit ofDigits) h
  rw [signed_integer y hr, signed_integer z hs] at read
  exact Prod.mk.inj read

theorem offset_append_inj {y z : Int} {r s : Text} (hr : ∀ c ∈ r.head?, isHexDigit c = false)
    (hs : ∀ c ∈ s.head?, isHexDigit c = false) (h : offset y ++ r = offset z ++ s) :
    y = z ∧ r = s := by
  obtain ⟨ds, written, read⟩ := signed_offset y hr
  obtain ⟨es, written', read'⟩ := signed_offset z hs
  rw [written, written', List.append_assoc, List.append_assoc] at h
  rw [List.append_cancel_left h, read'] at read
  exact Prod.mk.inj read.symm

/-- Integers are told apart in a list. -/
theorem delimited_integer : Delimited integer where
  inj := by
    have stop : ∀ {t : Text}, EndsValue t → ∀ c ∈ t.head?, c.isDigit = false := by
      rintro t (ends | ends) c hc <;> rw [ends] at hc <;> cases hc <;> rfl
    intro y z r s hr hs h
    exact integer_append_inj (stop hr) (stop hs) h
  start := by
    intro z t same
    obtain ⟨u, c, written, digit⟩ := exists_integer_concat z
    have mem : c ∈ [']'] := by
      rw [← same, written]
      simp
    rw [List.mem_singleton.1 mem] at digit
    cases digit

/-! ## What is shown fits on a line -/

theorem line_not_mem_integer (z : Int) : '\n' ∉ integer z := by
  rw [Dot.Reading.integer_eq_sign]
  refine List.not_mem_append ?_ fun mem => absurd (isDigit_of_mem_natural mem) (by decide)
  unfold Dot.Reading.sign
  split <;> decide

theorem line_not_mem_offset (z : Int) : '\n' ∉ offset z := by
  refine List.not_mem_append (List.not_mem_append (by decide) ?_)
    (line_not_mem_leftpad_hexadecimal _ _)
  split <;> decide

theorem line_not_mem_list {ts : List Text} (h : ∀ t ∈ ts, '\n' ∉ t) : '\n' ∉ list ts := by
  have values : '\n' ∉ List.intercalate (lit ", ") ts := by
    cases ts with
    | nil => simp
    | cons t ts =>
        rw [intercalate_cons]
        refine List.not_mem_append (h t List.mem_cons_self) fun mem => ?_
        obtain ⟨u, hu, mem⟩ := List.mem_flatMap.1 mem
        exact List.not_mem_append (by decide) (h u (List.mem_cons_of_mem t hu)) mem
  simp [list, values]

theorem endsDark_integer (z : Int) : EndsDark (integer z) := by
  obtain ⟨t, c, written, digit⟩ := exists_integer_concat z
  exact ⟨t, c, written, isBlank_of_isDigit digit⟩

theorem endsDark_list (ts : List Text) : EndsDark (list ts) := ⟨_, ']', rfl, by decide⟩

end FlowGraph.Text
