import FlowGraph.Proofs.Method.Summary

/-!
# Sections of an outline

The lines of an outline below its title come in *sections*: a line behind two blanks, and the
lines below it, which stand behind more.  `sections` finds them by the blanks alone.  They are
the trees of the summary's parts (`sections_tail_outlineLines`), and those whose first line
starts with the word "block" are the blocks of the code in order
(`blockSections_tail_outlineLines`).

The lines are those that the outline is put together from.  A text of the method that has line
breaks itself is within one of them.
-/

namespace FlowGraph

/-! ## Reading sections -/

/-- A line with the lines below it. -/
structure OutlineSection where
  /-- The line. -/
  heading : Text
  /-- The lines below it. -/
  body : List Text
deriving DecidableEq, Repr

/-- Whether a line stands behind two blanks and no more. -/
def startsSection : Text → Bool
  | ' ' :: ' ' :: c :: _ => c ≠ ' '
  | _ => false

/-- The sections of some lines. -/
def sections : List Text → List OutlineSection
  | [] => []
  | t :: ts =>
      if startsSection t then ⟨t, ts.takeWhile fun u => !startsSection u⟩ :: sections ts
      else sections ts

/-- The sections of blocks among some lines. -/
def blockSections (ts : List Text) : List OutlineSection :=
  (sections ts).filter fun s => (lit "  block ").isPrefixOf s.heading

theorem sections_append {ts : List Text} (h : ∀ t ∈ ts, startsSection t = false) (us : List Text) :
    sections (ts ++ us) = sections us := by
  induction ts with
  | nil => rfl
  | cons t ts ih =>
      have ht : ¬ startsSection t = true := by simp [h t List.mem_cons_self]
      rw [List.cons_append, sections, if_neg ht]
      exact ih fun u hu => h u (List.mem_cons_of_mem t hu)

/-! ## The sections of a sketch -/

namespace Sketch

theorem startsSection_indented {t : Text} (h : t.StartsDark) :
    startsSection (indented 1 t) = true := by
  obtain ⟨c, u, rfl, dark⟩ := h
  refine decide_eq_true ?_
  rintro rfl
  exact absurd dark (by decide)

theorem level_le_of_mem {level : Nat} {f : Sketch} {p : Nat × Text} (h : p ∈ rows level f) :
    level ≤ p.1 := by
  induction f generalizing level with
  | nil => cases h
  | leaf b => cases b
  | node t body rest ihBody ihRest =>
      rcases List.mem_cons.1 h with rfl | h
      · exact Nat.le_refl level
      · rcases List.mem_append.1 h with h | h
        · exact Nat.le_of_succ_le (ihBody h)
        · exact ihRest h

/-- The lines from the second level on start no section. -/
theorem startsSection_of_mem {f : Sketch} {t : Text} (h : t ∈ f.lines 2) :
    startsSection t = false := by
  obtain ⟨⟨level, u⟩, mem, rfl⟩ := List.mem_map.1 h
  obtain ⟨k, rfl⟩ := Nat.exists_eq_add_of_le' (level_le_of_mem mem)
  rfl

/-- The section of a tree. -/
def Tree.toSection (p : Tree) : OutlineSection := ⟨indented 1 p.1, p.2.lines 2⟩

/-- The sections of trees side by side are those of the trees. -/
theorem sections_lines {ps : List Tree} (h : ∀ p ∈ ps, p.1.StartsDark) :
    sections ((of ps).lines 1) = ps.map Tree.toSection := by
  induction ps with
  | nil => rfl
  | cons p ps ih =>
      obtain ⟨first, others⟩ := List.forall_mem_cons.1 h
      have deep : ∀ t ∈ p.2.lines 2, startsSection t = false := fun t => startsSection_of_mem
      have ends : ((of ps).lines 1).takeWhile (fun u => !startsSection u) = [] := by
        cases ps with
        | nil => rfl
        | cons q qs =>
            have next := startsSection_indented (others q List.mem_cons_self)
            rw [of_cons, lines_node, List.takeWhile_cons_of_neg (by simp [next])]
      rw [of_cons, lines_node, sections, if_pos (startsSection_indented first),
        List.takeWhile_append_of_pos (by simpa using deep), ends, List.append_nil,
        sections_append deep, ih others]
      rfl

theorem Part.startsDark (part : Part) {p : Tree} (h : p ∈ part.trees) : p.1.StartsDark := by
  obtain ⟨t, line⟩ := List.head?_eq_some_iff.1 (part.starts p h)
  exact ⟨part.letter, t, line, part.dark⟩

/-- A tree whose line starts with a letter is in a part with this letter. -/
theorem Part.letter_eq (part : Part) {p : Tree} {c : Char} (mem : p ∈ part.trees)
    (h : p.1.head? = some c) : part.letter = c :=
  Option.some.inj ((part.starts p mem).symm.trans h)

theorem mem_whole_of_head? {ps : List Part} {p : Tree} {c : Char} (h : p.1.head? = some c) :
    p ∈ whole ps ↔ p ∈ whole (ps.filter (·.letter = c)) := by
  rw [whole, whole, List.mem_flatMap, List.mem_flatMap]
  refine exists_congr fun part => ?_
  rw [List.mem_filter, decide_eq_true_eq, and_assoc]
  exact and_congr_right fun _ => ⟨fun mem => ⟨part.letter_eq mem h, mem⟩, And.right⟩

theorem filter_whole {f : Tree → Bool} {c : Char} (h : ∀ p, f p = true → p.1.head? = some c)
    (ps : List Part) : (whole ps).filter f = (whole (ps.filter (·.letter = c))).filter f := by
  induction ps with
  | nil => rfl
  | cons part ps ih =>
      have front : whole (part :: ps) = part.trees ++ whole ps := List.flatMap_cons
      rw [front, List.filter_append, ih, List.filter_cons]
      split
      · exact (List.filter_append ..).symm
      · next other =>
          have none : part.trees.filter f = [] := List.filter_eq_nil_iff.2 fun p mem found =>
            other (decide_eq_true (part.letter_eq mem (h p found)))
          rw [none, List.nil_append]

theorem indented_add (level j : Nat) (t : Text) :
    indented (level + j) t = List.replicate (2 * level) ' ' ++ indented j t := by
  rw [indented, indented, Nat.mul_add, ← List.replicate_append_replicate, List.append_assoc]

/-- A line that is not blank at its start is among those of the trees only if it is the line of
one of them, since the lines below stand behind more blanks. -/
theorem indented_mem_lines {ps : List Tree} {t : Text} (h : t.StartsDark) (level : Nat) :
    indented level t ∈ (of ps).lines level ↔ ∃ p ∈ ps, p.1 = t := by
  have deeper : ∀ p : Tree, indented level t ∉ p.2.lines (level + 1) := by
    intro p mem
    obtain ⟨⟨k, u⟩, row, same⟩ := List.mem_map.1 mem
    obtain ⟨j, rfl⟩ := Nat.exists_eq_add_of_le (level_le_of_mem row)
    obtain ⟨c, v, rfl, dark⟩ := h
    dsimp only at same
    rw [Nat.add_assoc, Nat.add_comm 1 j, indented_add] at same
    obtain ⟨rfl, -⟩ := List.cons.inj (List.append_cancel_left same)
    exact absurd dark (by decide)
  rw [lines_of, List.mem_flatMap]
  refine exists_congr fun p => and_congr_right fun _ => ?_
  rw [List.mem_cons, or_iff_left (deeper p)]
  constructor
  · intro same
    exact (List.append_cancel_left same).symm
  · intro same
    rw [same]

end Sketch

/-! ## The sections of an outline -/

open Sketch (Part Tree)

/-- The line for an else target. -/
def elseLine (k : Int) : Text := lit "    else: " ++ Text.integer k

namespace BlockSummary

/-- The section of a block. -/
def toSection (b : BlockSummary) : OutlineSection := Tree.toSection (b.line, b.body)

/-- The section of a block starts with its successors. -/
theorem head?_body_toSection (b : BlockSummary) : b.toSection.body.head? =
    some (lit "    successors: " ++ Text.list (b.successors.map Text.integer)) := rfl

/-- The section of a block has a line for its else target. -/
theorem elseLine_mem_body (b : BlockSummary) (k : Int) :
    elseLine k ∈ b.toSection.body ↔ b.elseTarget = some k := by
  have startsDark : Text.StartsDark (lit "else: " ++ Text.integer k) :=
    ⟨'e', lit "lse: " ++ Text.integer k, rfl, by decide⟩
  have line : elseLine k = indented 2 (lit "else: " ++ Text.integer k) := rfl
  rw [line]
  show _ ∈ b.body.lines 2 ↔ _
  rw [body, Sketch.indented_mem_lines startsDark]
  constructor
  · rintro ⟨p, mem, same⟩
    have head : p.1.head? = some 'e' := by
      rw [same]
      rfl
    have mem : p ∈ (b.elseTarget.toList.map fun z =>
        Tree.single (lit "else: " ++ Text.integer z)) ++ [] :=
      (Sketch.mem_whole_of_head? head).1 mem
    rw [List.append_nil, List.mem_map] at mem
    obtain ⟨z, target, rfl⟩ := mem
    rw [Dot.Reading.integer_injective (List.append_cancel_left same)] at target
    exact Option.mem_toList.1 target
  · intro target
    refine ⟨.single (lit "else: " ++ Text.integer k), (Sketch.mem_whole_of_head? rfl).2 ?_, rfl⟩
    exact List.mem_append_left _ (List.mem_map.2 ⟨k, Option.mem_toList.2 target, rfl⟩)

end BlockSummary

namespace Method

variable (m : Method)

theorem tail_outlineLines :
    m.outlineLines.tail = (Sketch.of (Sketch.whole m.summary.parts)).lines 1 := by
  rw [outlineLines_eq, Summary.sketch, Sketch.lines_node, List.tail_cons]
  exact List.append_nil _

theorem head?_tail_outlineLines : m.outlineLines.tail.head? =
    some (lit "  entry: " ++ entryText (m.enterBlock.map m.blockId)) := by
  rw [tail_outlineLines]
  rfl

/-- The section of a block has a line for the number of its false path. -/
theorem elseLine_mem_section (i : Nat) (k : Int) :
    elseLine k ∈ (m.blockSummary i).toSection.body ↔
      ∃ j, (m.block i).elseTarget = some j ∧ m.blockId j = k :=
  ((m.blockSummary i).elseLine_mem_body k).trans Option.map_eq_some_iff

/-- The sections of an outline are the trees of the summary's parts. -/
theorem sections_tail_outlineLines :
    sections m.outlineLines.tail = (Sketch.whole m.summary.parts).map Tree.toSection := by
  rw [tail_outlineLines, Sketch.sections_lines]
  exact Sketch.forall_mem_whole.2 fun part _ p hp => part.startsDark hp

/-- The sections of blocks in an outline are those of the blocks of the code, in order. -/
theorem blockSections_tail_outlineLines :
    blockSections m.outlineLines.tail = m.listed.map fun i => (m.blockSummary i).toSection := by
  have letter : ∀ p : Tree, (lit "  block ").isPrefixOf (indented 1 p.1) = true →
      p.1.head? = some 'b' := by
    intro p h
    obtain ⟨t, line⟩ := List.isPrefixOf_iff_prefix.1 h
    have line : lit "block " ++ t = p.1 := (List.cons.inj (List.cons.inj line).2).2
    rw [← line]
    rfl
  have blocks : Sketch.whole (m.summary.parts.filter (·.letter = 'b'))
      = m.summary.blocks.map fun b => (b.line, b.body) := List.append_nil _
  have all : ∀ p ∈ m.summary.blocks.map fun b => (b.line, b.body),
      (lit "  block ").isPrefixOf (indented 1 p.1) = true := by
    intro p mem
    obtain ⟨b, -, rfl⟩ := List.mem_map.1 mem
    exact List.isPrefixOf_iff_prefix.2 ⟨_, rfl⟩
  have found := Sketch.filter_whole letter m.summary.parts
  rw [blocks, List.filter_eq_self.2 all] at found
  rw [blockSections, sections_tail_outlineLines, List.filter_map]
  refine (congrArg (List.map Tree.toSection) found).trans ?_
  rw [summary, List.map_map, List.map_map]
  rfl

end Method

end FlowGraph
