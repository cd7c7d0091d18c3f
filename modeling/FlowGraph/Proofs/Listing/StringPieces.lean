import Mathlib.Data.List.Induction
import Mathlib.Logic.ExistsUnique
import FlowGraph.Proofs.Listing.Quote

/-!
# Pieces of a string

Between its quotes a string of a listing is a row of *pieces*: characters for themselves, and
characters behind a backslash.  The pieces are the units of what the string stands for
(`unquote_quotes`).

The scanner does not look for pieces.  It ends a string at the first quote of the line that
stands behind an even number of backslashes (`ClosesFirst`).  From the left, a text without line
breaks is a row of pieces up to its end, up to a backslash at its end, or up to a quote that is
in no piece (`exists_cut`).  A row of pieces has an even number of backslashes at its end
(`trailing_body`).  So the two pair the backslashes alike, however many there are in a row and
wherever they stand (`closesFirst_iff`).
-/

namespace FlowGraph.Listing

/-! ## Pieces -/

/-- A piece of what stands between the quotes of a string. -/
inductive StringPiece where
  /-- A character for itself. -/
  | single (c : Char) (line : c ≠ '\n') (slash : c ≠ '\\') (quote : c ≠ '"')
  /-- A character behind a backslash. -/
  | pair (c : Char) (line : c ≠ '\n')

namespace StringPiece

/-- A piece as it is written. -/
def text : StringPiece → Text
  | single c _ _ _ => [c]
  | pair c _ => ['\\', c]

/-- The character that a piece stands for. -/
def meaning : StringPiece → Char
  | single c _ _ _ => c
  | pair c _ => if c = 'n' then '\n' else if c = 't' then '\t' else c

/-- What stands between the quotes of a string of these pieces. -/
def body (ps : List StringPiece) : Text := ps.flatMap text

/-- The string of these pieces. -/
def quotes (ps : List StringPiece) : Text := '"' :: body ps ++ ['"']

@[simp] theorem body_nil : body [] = [] := rfl

@[simp] theorem body_single (c : Char) (line slash quote) (ps : List StringPiece) :
    body (single c line slash quote :: ps) = c :: body ps := rfl

@[simp] theorem body_pair (c : Char) (line) (ps : List StringPiece) :
    body (pair c line :: ps) = '\\' :: c :: body ps := rfl

@[simp] theorem body_append (ps qs : List StringPiece) : body (ps ++ qs) = body ps ++ body qs :=
  List.flatMap_append

/-- The pieces of a text are determined by it. -/
theorem body_injective : ∀ {ps qs : List StringPiece}, body ps = body qs → ps = qs
  | [], [], _ => rfl
  | [], single .. :: _, h => by cases h
  | [], pair .. :: _, h => by cases h
  | single .. :: _, [], h => by cases h
  | pair .. :: _, [], h => by cases h
  | single c _ slash _ :: ps, single d _ _ _ :: qs, h => by
      obtain ⟨rfl, rest⟩ := List.cons.inj h
      rw [body_injective rest]
  | single c _ slash _ :: ps, pair d _ :: qs, h => absurd (List.cons.inj h).1 slash
  | pair c _ :: ps, single d _ slash _ :: qs, h => absurd (List.cons.inj h).1.symm slash
  | pair c _ :: ps, pair d _ :: qs, h => by
      obtain ⟨rfl, rest⟩ := List.cons.inj (List.cons.inj h).2
      rw [body_injective rest]

theorem isStringBody_body (ps : List StringPiece) : IsStringBody (body ps) := by
  induction ps with
  | nil => exact .nil
  | cons p ps ih =>
      cases p with
      | single c line slash quote => exact .plain quote slash line ih
      | pair c line => exact .escaped line ih

end StringPiece

open StringPiece

theorem IsStringBody.exists_pieces {t : Text} (h : IsStringBody t) : ∃ ps, t = body ps := by
  induction h with
  | nil => exact ⟨[], rfl⟩
  | plain quote slash line _ ih =>
      obtain ⟨ps, rfl⟩ := ih
      exact ⟨single _ line slash quote :: ps, rfl⟩
  | escaped line _ ih =>
      obtain ⟨ps, rfl⟩ := ih
      exact ⟨pair _ line :: ps, rfl⟩

/-! ## What the pieces stand for -/

theorem unescape_body (ps : List StringPiece) : unescape (body ps) = ps.map meaning := by
  induction ps with
  | nil => rfl
  | cons p ps ih =>
      cases p with
      | single c line slash quote =>
          rw [body_single, unescape_plain slash, ih]
          rfl
      | pair c line =>
          rw [body_pair, unescape_pair line, ih]
          rfl

theorem unquote_quotes (ps : List StringPiece) : unquote (quotes ps) = ps.map meaning := by
  have inner : ((quotes ps).drop 1).dropLast = body ps := List.dropLast_concat
  rw [unquote, inner, unescape_body]

/-! ## Backslashes at the end of a text -/

/-- The number of backslashes at the end of a text. -/
def trailing (t : Text) : Nat := (t.reverse.takeWhile (· = '\\')).length

theorem trailing_slash (t : Text) : trailing (t ++ ['\\']) = trailing t + 1 := by
  rw [trailing, trailing, List.reverse_concat, List.takeWhile_cons_of_pos (by decide),
    List.length_cons]

theorem trailing_other {c : Char} (h : c ≠ '\\') (t : Text) : trailing (t ++ [c]) = 0 := by
  rw [trailing, List.reverse_concat, List.takeWhile_cons_of_neg (by simpa using h),
    List.length_nil]

/-- The backslashes at the end of a row of pieces belong to pairs. -/
theorem trailing_body (ps : List StringPiece) : trailing (body ps) % 2 = 0 := by
  induction ps using List.reverseRecOn with
  | nil => rfl
  | append_singleton ps p ih =>
      rw [body_append]
      cases p with
      | single c line slash quote =>
          have other : trailing (body ps ++ [c]) = 0 := trailing_other slash _
          exact congrArg (· % 2) other
      | pair c line =>
          have split : body ps ++ body [pair c line] = (body ps ++ ['\\']) ++ [c] := by simp
          rw [split]
          by_cases slash : c = '\\'
          · rw [slash, trailing_slash, trailing_slash]
            omega
          · rw [trailing_other slash]

/-- One more backslash is left over. -/
theorem trailing_body_slash (ps : List StringPiece) : trailing (body ps ++ ['\\']) % 2 = 1 := by
  have even := trailing_body ps
  rw [trailing_slash]
  omega

/-! ## Where a string ends -/

/-- Whether a quote behind this text is the first one of the line that stands behind an even
number of backslashes. -/
structure ClosesFirst (t : Text) : Prop where
  line : '\n' ∉ t
  even : trailing t % 2 = 0
  first : ∀ before after, t = before ++ '"' :: after → trailing before % 2 = 1

/-- A quote between the quotes of a string is in a pair. -/
theorem pair_of_body_eq : ∀ {ps : List StringPiece} {before after : Text},
    body ps = before ++ '"' :: after →
      ∃ qs line rs, ps = qs ++ pair '"' line :: rs ∧ before = body qs ++ ['\\']
  | [], before, after, h => by simp at h
  | single c line slash quote :: ps, before, after, h => by
      cases before with
      | nil => exact absurd (List.cons.inj h).1 quote
      | cons d before =>
          obtain ⟨rfl, rest⟩ := List.cons.inj h
          obtain ⟨qs, line', rs, rfl, rfl⟩ := pair_of_body_eq rest
          exact ⟨single c line slash quote :: qs, line', rs, rfl, rfl⟩
  | pair c line :: ps, before, after, h => by
      cases before with
      | nil => exact absurd (List.cons.inj h).1 (by decide)
      | cons d before =>
          obtain ⟨rfl, tail⟩ := List.cons.inj h
          cases before with
          | nil =>
              obtain ⟨rfl, -⟩ := List.cons.inj tail
              exact ⟨[], line, ps, rfl, rfl⟩
          | cons d before =>
              obtain ⟨rfl, rest⟩ := List.cons.inj tail
              obtain ⟨qs, line', rs, rfl, rfl⟩ := pair_of_body_eq rest
              exact ⟨pair c line :: qs, line', rs, rfl, rfl⟩

theorem line_not_mem_body (ps : List StringPiece) : '\n' ∉ body ps := by
  induction ps with
  | nil => exact List.not_mem_nil
  | cons p ps ih =>
      cases p with
      | single c line slash quote => simp [ih, line.symm]
      | pair c line => simp [ih, line.symm]

/-- A text without line breaks is cut into pieces from the left up to its end, a backslash at
its end, or a quote. -/
theorem exists_cut : ∀ {t : Text}, '\n' ∉ t →
    ∃ ps, t = body ps ∨ t = body ps ++ ['\\'] ∨ ∃ rest, t = body ps ++ '"' :: rest
  | [], _ => ⟨[], .inl rfl⟩
  | c :: t, hn => by
      rw [List.mem_cons, not_or] at hn
      by_cases quote : c = '"'
      · exact ⟨[], .inr (.inr ⟨t, by rw [quote]; rfl⟩)⟩
      by_cases slash : c = '\\'
      · cases t with
        | nil => exact ⟨[], .inr (.inl (by rw [slash]; rfl))⟩
        | cons d t =>
            rw [List.mem_cons, not_or] at hn
            obtain ⟨ps, cut⟩ := exists_cut hn.2.2
            refine ⟨pair d (Ne.symm hn.2.1) :: ps, ?_⟩
            simpa [slash] using cut
      · obtain ⟨ps, cut⟩ := exists_cut hn.2
        refine ⟨single c (Ne.symm hn.1) slash quote :: ps, ?_⟩
        simpa using cut

/-- The text before the first quote behind an even number of backslashes is a row of pieces. -/
theorem closesFirst_iff {t : Text} : ClosesFirst t ↔ ∃ ps, t = body ps := by
  constructor
  · intro h
    obtain ⟨ps, whole | slash | ⟨rest, quote⟩⟩ := exists_cut h.line
    · exact ⟨ps, whole⟩
    · have even := h.even
      rw [slash, trailing_body_slash] at even
      cases even
    · have odd := h.first _ _ quote
      rw [trailing_body] at odd
      cases odd
  · rintro ⟨ps, rfl⟩
    refine ⟨line_not_mem_body ps, trailing_body ps, fun before after h => ?_⟩
    obtain ⟨qs, -, -, -, rfl⟩ := pair_of_body_eq h
    exact trailing_body_slash qs

/-! ## Strings -/

theorem scan_quotes {allowed : Terminal → Bool} (allows : allowed .string = true)
    (ps : List StringPiece) (rest : Text) :
    scan allowed (quotes ps ++ rest) = some (⟨.string, quotes ps⟩, rest) := by
  have text : quotes ps ++ rest = '"' :: body ps ++ '"' :: rest := by simp [quotes]
  rw [text]
  exact scan_eq_some_iff.2 (.string allows (isStringBody_body ps))

/-- The scanner and the decoder of strings agree.  The scanner reads a string exactly if strings
are allowed and the text starts with a row of pieces in quotes, whatever follows.  The closing
quote is the first of the line behind an even number of backslashes, every quote before it is in
a pair, and the decoder replaces each piece by what it stands for. -/
theorem scan_string_iff (allowed : Terminal → Bool) :
    (∀ text token rest, scan allowed text = some (token, rest) ∧ token.terminal = .string ↔
      allowed .string = true ∧ ∃! ps, text = quotes ps ++ rest ∧ token = ⟨.string, quotes ps⟩) ∧
    ∀ ps, ClosesFirst (body ps) ∧
      (∀ before after, body ps = before ++ '"' :: after →
        ∃ qs line rs, ps = qs ++ pair '"' line :: rs ∧ before = body qs ++ ['\\']) ∧
      unquote (quotes ps) = ps.map meaning := by
  refine ⟨fun text token rest => ⟨?_, ?_⟩, fun ps => ⟨closesFirst_iff.2 ⟨ps, rfl⟩,
    fun before after => pair_of_body_eq, unquote_quotes ps⟩⟩
  · rintro ⟨scanned, isString⟩
    cases scan_eq_some_iff.1 scanned with
    | string allows isBody =>
        obtain ⟨ps, rfl⟩ := isBody.exists_pieces
        refine ⟨allows, ps, ⟨by simp [quotes], rfl⟩, fun qs same => ?_⟩
        have lexeme : quotes qs = quotes ps := (Token.mk.inj same.2).2.symm
        exact body_injective (List.append_cancel_right (List.cons.inj lexeme).2)
    | sign hs allows =>
        have none : ∀ s ∈ Terminal.signs, s.1 ≠ .string := by decide
        exact absurd isString (none _ hs)
    | int | name | word | front => cases isString
  · rintro ⟨allows, ps, ⟨rfl, rfl⟩, -⟩
    exact ⟨scan_quotes allows ps rest, rfl⟩

/-- Three backslashes before a quote in a string, two before the quote that ends it. -/
example :
    scan (fun _ => true) (lit "\"\\\\\\\"\\\\\"\"") =
        some (⟨.string, lit "\"\\\\\\\"\\\\\""⟩, lit "\"") ∧
      unquote (lit "\"\\\\\\\"\\\\\"") = lit "\\\"\\" := by
  decide +kernel

end FlowGraph.Listing
