import FlowGraph.Dot.Label
import FlowGraph.Proofs.Dot.Decoding

/-!
# Lines of a label

A label shows texts one below the other by escaping each and putting the break of labels
behind it.  That is the same as ending each with a line break and then escaping the whole
(`escape_unlines`), since the break of labels is what a line break is escaped to.

A printer starts its text with a line break, and the drawing leaves that out after the text is
escaped, by a look at its first two characters.  What it finds there can only come from a line
break: the `l` of a label's break is not among the characters that a backslash is put before
(`dropLineEnd_escape`).  So all that an escaped text has lost are the backslashes and that one
break, whatever the printer gives (`lines_eq_escape`).
-/

namespace FlowGraph.Dot

/-! ## Line breaks at the start -/

/-- A text without the line break at its start, if it starts with one. -/
def dropBreak : Text → Text
  | '\n' :: t => t
  | t => t

theorem dropBreak_cons {c : Char} (h : c ≠ '\n') (t : Text) : dropBreak (c :: t) = c :: t := by
  unfold dropBreak
  split
  · next same => exact absurd (List.cons.inj same).1 h
  · rfl

theorem dropBreak_sublist (t : Text) : (dropBreak t).Sublist t := by
  unfold dropBreak
  split
  · exact List.sublist_cons_self _ _
  · exact List.Sublist.refl t

theorem dropBreak_append {t : Text} (h : t ≠ []) (rest : Text) :
    dropBreak (t ++ rest) = dropBreak t ++ rest := by
  obtain ⟨c, t, rfl⟩ := List.exists_cons_of_ne_nil h
  by_cases line : c = '\n'
  · subst line
    rfl
  · rw [List.cons_append, dropBreak_cons line, dropBreak_cons line, List.cons_append]

/-- Only a backslash can start the break of labels. -/
theorem dropLineEnd_cons {c : Char} (h : c ≠ '\\') (t : Text) :
    dropLineEnd (c :: t) = c :: t := by
  unfold dropLineEnd
  split
  · next same => exact absurd (List.cons.inj same).1 h
  · rfl

/-- Only the `l` behind it can end the break of labels. -/
theorem dropLineEnd_pair {c : Char} (h : c ≠ 'l') (t : Text) :
    dropLineEnd ('\\' :: c :: t) = '\\' :: c :: t := by
  unfold dropLineEnd
  split
  · next same => exact absurd (List.cons.inj (List.cons.inj same).2).1 h
  · rfl

theorem escape_break (t : Text) : escape ('\n' :: t) = lineEnd ++ escape t := escape_cons '\n' t

theorem dropLineEnd_escape_break (t : Text) : dropLineEnd (escape ('\n' :: t)) = escape t := by
  rw [escape_break, lineEnd, List.cons_append, List.singleton_append, dropLineEnd]

/-- What is left out of an escaped text is the escaped form of a line break. -/
theorem dropLineEnd_escape (t : Text) :
    dropLineEnd (escape t) = escape (dropBreak (t.filter (· ≠ '\\'))) := by
  rw [← escape_filter t]
  generalize bare : t.filter (· ≠ '\\') = u
  cases u with
  | nil => rfl
  | cons c u =>
      have backslash : c ≠ '\\' := by
        have mem : c ∈ t.filter (· ≠ '\\') := bare ▸ List.mem_cons_self
        simpa using (List.mem_filter.1 mem).2
      by_cases line : c = '\n'
      · subst line
        rw [dropBreak, dropLineEnd_escape_break]
      rw [dropBreak_cons line, escape_cons, escapeChar, if_neg backslash, if_neg line]
      by_cases meaning : c ∈ reserved
      · have noLine : c ≠ 'l' := by
          rintro rfl
          exact absurd meaning (by decide)
        rw [if_pos meaning, List.cons_append, List.singleton_append, dropLineEnd_pair noLine]
      · rw [if_neg meaning, List.singleton_append, dropLineEnd_cons backslash]

/-! ## Escaping line by line -/

theorem escape_unlines (ts : List Text) :
    escape (Text.unlines ts) = ts.flatMap fun t => escape t ++ lineEnd := by
  induction ts with
  | nil => rfl
  | cons t ts ih =>
      have line : escapeChar '\n' = lineEnd := rfl
      rw [Text.unlines_cons, escape_append, escape_cons, line, ih, List.flatMap_cons,
        List.append_assoc]

/-- Lines that each start with a line break, and a break behind them, are a break and lines
that each end with one. -/
theorem flatMap_break_append (ts : List Text) :
    ts.flatMap ('\n' :: ·) ++ ['\n'] = '\n' :: Text.unlines ts := by
  induction ts with
  | nil => rfl
  | cons t ts ih => simp [ih]

/-- Lines printed with a break before each are shown with a break behind each. -/
theorem dropLineEnd_escape_lines (ts : List Text) :
    dropLineEnd (escape (ts.flatMap ('\n' :: ·) ++ ['\n'])) = escape (Text.unlines ts) := by
  rw [flatMap_break_append, dropLineEnd_escape_break]

/-- The break behind a printed text is shown, unless there is nothing else to show. -/
theorem dropLineEnd_escape_append (t : Text) :
    dropLineEnd (escape (t ++ ['\n']))
      = if t.filter (· ≠ '\\') = [] then []
        else escape (dropBreak (t.filter (· ≠ '\\')) ++ ['\n']) := by
  have last : (t ++ ['\n']).filter (· ≠ '\\') = t.filter (· ≠ '\\') ++ ['\n'] := by simp
  rw [dropLineEnd_escape, last]
  split
  · next empty =>
      rw [empty]
      rfl
  · next shown => rw [dropBreak_append shown]

/-! ## Lines of instructions -/

theorem rawLine_eq (i : Instruction) : rawLine i = i.text ++ ' ' ::
    if i.attributes = [] then []
    else lit "A:\x7b" ++ List.intercalate (lit ", ") i.attributes ++ lit "\x7d" := by
  simp only [rawLine, List.isEmpty_iff]
  rfl

theorem plainLine_eq (i : Instruction) : plainLine i = i.text ++
    if i.attributes = [] then [] else lit "  // " ++ List.intercalate (lit ", ") i.attributes := by
  simp only [plainLine, List.isEmpty_iff]
  rfl

section

variable {printer : Printer} {is : List Instruction} {printed : Text}

theorem lines_raw : (⟨true, printer⟩ : InstructionStyle).lines is
    = escape (Text.unlines (is.map rawLine)) := by
  rw [escape_unlines, List.flatMap_map]
  rfl

theorem lines_plain : (⟨false, plainPrinter⟩ : InstructionStyle).lines is
    = escape (Text.unlines (is.map plainLine)) := by
  have printed : plainText is = (is.map plainLine).flatMap ('\n' :: ·) := by
    rw [List.flatMap_map]
    rfl
  show dropLineEnd (escape (plainText is ++ ['\n'])) = _
  rw [printed, dropLineEnd_escape_lines]

theorem lines_of_failure (h : printer is = none) :
    (⟨false, printer⟩ : InstructionStyle).lines is
      = escape (Text.unlines (is.map Instruction.text)) := by
  have bare : (is.flatMap fun i => '\n' :: i.text)
      = (is.map Instruction.text).flatMap ('\n' :: ·) := by
    rw [List.flatMap_map]
  show dropLineEnd (escape
    ((printer is).getD (is.flatMap fun i => '\n' :: i.text) ++ ['\n'])) = _
  rw [h, Option.getD_none, bare, dropLineEnd_escape_lines]

theorem lines_of_printed (h : printer is = some printed) :
    (⟨false, printer⟩ : InstructionStyle).lines is
      = if printed.filter (· ≠ '\\') = [] then []
        else escape (dropBreak (printed.filter (· ≠ '\\')) ++ ['\n']) := by
  show dropLineEnd (escape
    ((printer is).getD (is.flatMap fun i => '\n' :: i.text) ++ ['\n'])) = _
  rw [h, Option.getD_some, dropLineEnd_escape_append]

/-- What a label shows of a text without backslashes is the text. -/
theorem decode_escape_printed (t : Text) :
    decode (escape (dropBreak (t.filter (· ≠ '\\')) ++ ['\n']))
      = dropBreak (t.filter (· ≠ '\\')) ++ ['\n'] := by
  have kept : ∀ c ∈ dropBreak (t.filter (· ≠ '\\')) ++ ['\n'], c ≠ '\\' := by
    refine List.forall_mem_append.2 ⟨fun c hc => ?_, by simp⟩
    simpa using (List.mem_filter.1 ((dropBreak_sublist _).subset hc)).2
  rw [decode_escape, List.filter_eq_self.2 fun c hc => by simpa using kept c hc]

end

/-- The lines of a block are escaped texts that end with a line break, whether the instructions
are shown raw, by the printer of their own, by a printer that fails or by one that gives any
text, which then has lost nothing but its backslashes and one line break at its start.  So are
the lines of attributes. -/
theorem lines_eq_escape (printer : Printer) (is : List Instruction) (attributes : List Text) :
    (⟨true, printer⟩ : InstructionStyle).lines is
      = escape (Text.unlines (is.map fun i => i.text ++ ' ' ::
          if i.attributes = [] then []
          else lit "A:\x7b" ++ List.intercalate (lit ", ") i.attributes ++ lit "\x7d")) ∧
    (⟨false, plainPrinter⟩ : InstructionStyle).lines is
      = escape (Text.unlines (is.map fun i => i.text ++
          if i.attributes = [] then []
          else lit "  // " ++ List.intercalate (lit ", ") i.attributes)) ∧
    (⟨false, plainPrinter⟩ : InstructionStyle).lines [] = [] ∧
    (match printer is with
      | none => (⟨false, printer⟩ : InstructionStyle).lines is
          = escape (Text.unlines (is.map Instruction.text))
      | some printed =>
          let shown := printed.filter (· ≠ '\\')
          (⟨false, printer⟩ : InstructionStyle).lines is
            = (if shown = [] then [] else escape (dropBreak shown ++ ['\n'])) ∧
          decode ((⟨false, printer⟩ : InstructionStyle).lines is)
            = if shown = [] then [] else dropBreak shown ++ ['\n']) ∧
    attributeLines attributes = escape (Text.unlines attributes) := by
  have raw := List.map_congr_left fun i (_ : i ∈ is) => rawLine_eq i
  have plain := List.map_congr_left fun i (_ : i ∈ is) => plainLine_eq i
  refine ⟨raw ▸ lines_raw, plain ▸ lines_plain, rfl, ?_, (escape_unlines attributes).symm⟩
  cases result : printer is with
  | none => exact lines_of_failure result
  | some printed =>
      refine ⟨lines_of_printed result, ?_⟩
      rw [lines_of_printed result]
      split
      · rfl
      · exact decode_escape_printed printed

/-- The `l` of a text that is printed behind a backslash is no line break. -/
example : (⟨false, fun _ => some ['\\', '\n', '\\', 'l']⟩ : InstructionStyle).lines []
    = ['l', '\\', 'l'] := by decide

end FlowGraph.Dot
