import FlowGraph.Proofs.Method.Indentation

/-!
# Parts of a sketch

A *tree* of a sketch is a line with the lines below it, and a sketch is its trees side by side.
Where the trees come in parts, each with a letter that its lines start with, each part is found
by its letter (`map_startingWith_whole`).  So two sketches that differ only in blanks at the
ends of lines agree part by part (`map_trimmed_eq_of_whole`).
-/

namespace FlowGraph.Sketch

/-! ## Trees -/

/-- A line with the lines below it. -/
abbrev Tree := Text × Sketch

/-- A line with nothing below it. -/
def Tree.single (t : Text) : Tree := (t, .nil)

/-- Lines side by side, each with the lines below it. -/
def of : List Tree → Sketch
  | [] => .nil
  | p :: ps => .node p.1 p.2 (of ps)

@[simp] theorem of_cons (p : Tree) (ps : List Tree) : of (p :: ps) = .node p.1 p.2 (of ps) := rfl

@[simp] theorem lines_nil (level : Nat) : lines level .nil = [] := rfl

@[simp] theorem lines_node (level : Nat) (t : Text) (body rest : Sketch) :
    lines level (.node t body rest)
      = indented level t :: (lines (level + 1) body ++ lines level rest) := by
  simp [lines, rows]

theorem lines_of (level : Nat) (ps : List Tree) :
    lines level (of ps) = ps.flatMap fun p => indented level p.1 :: lines (level + 1) p.2 := by
  induction ps with
  | nil => rfl
  | cons p ps ih => simp [ih]

@[simp] theorem Tree.single_fst (t : Text) : (single t).1 = t := rfl

@[simp] theorem Tree.single_snd (t : Text) : (single t).2 = .nil := rfl

/-- The tree without blanks at the ends of its lines. -/
def Tree.trimmed (p : Tree) : Tree := (Text.trimEnd p.1, p.2.trimmed)

theorem of_injective {ps qs : List Tree} (h : of ps = of qs) : ps = qs := by
  induction ps generalizing qs with
  | nil =>
      cases qs with
      | nil => rfl
      | cons q qs => cases h
  | cons p ps ih =>
      cases qs with
      | nil => cases h
      | cons q qs =>
          injection h with line body rest
          rw [ih rest, Prod.ext line body]

theorem trimmed_of (ps : List Tree) : (of ps).trimmed = of (ps.map Tree.trimmed) := by
  induction ps with
  | nil => rfl
  | cons p ps ih => exact congrArg (Forest.node _ _) ih

theorem map_trimmed_eq {ps qs : List Tree} (h : (of ps).trimmed = (of qs).trimmed) :
    ps.map Tree.trimmed = qs.map Tree.trimmed := by
  rw [trimmed_of, trimmed_of] at h
  exact of_injective h

/-! ## Parts -/

/-- The trees whose lines start with a character. -/
def startingWith (c : Char) (ps : List Tree) : List Tree :=
  ps.filter fun p => p.1.head? = some c

/-- Trees whose lines start with one letter. -/
structure Part where
  /-- The letter. -/
  letter : Char
  /-- The trees. -/
  trees : List Tree
  /-- The letter is not blank. -/
  dark : Text.isBlank letter = false
  /-- Each line starts with it. -/
  starts : ∀ p ∈ trees, p.1.head? = some letter

/-- The trees of a part without blanks at the ends of their lines. -/
def Part.trimmed (p : Part) : List Tree := p.trees.map Tree.trimmed

/-- The trees of some parts, one part behind the other. -/
def whole (ps : List Part) : List Tree := ps.flatMap Part.trees

theorem forall_mem_whole {p : Tree → Prop} {ps : List Part} :
    (∀ t ∈ whole ps, p t) ↔ ∀ part ∈ ps, ∀ t ∈ part.trees, p t :=
  List.forall_mem_flatMap

theorem startingWith_trimmed (p : Part) (c : Char) :
    startingWith c p.trimmed = if p.letter = c then p.trimmed else [] := by
  have starts : ∀ q ∈ p.trimmed, q.1.head? = some p.letter := by
    intro q hq
    obtain ⟨r, hr, rfl⟩ := List.mem_map.1 hq
    obtain ⟨t, line⟩ := List.head?_eq_some_iff.1 (p.starts r hr)
    rw [Tree.trimmed, line, Text.trimEnd_cons p.dark]
    rfl
  split
  · next same =>
      refine List.filter_eq_self.2 fun q hq => decide_eq_true ?_
      rw [starts q hq, same]
  · next other =>
      refine List.filter_eq_nil_iff.2 fun q hq => ?_
      rw [starts q hq]
      simpa using other

theorem startingWith_whole_cons (p : Part) (ps : List Part) (c : Char) :
    startingWith c ((whole (p :: ps)).map Tree.trimmed)
      = (if p.letter = c then p.trimmed else [])
        ++ startingWith c ((whole ps).map Tree.trimmed) := by
  rw [← startingWith_trimmed, startingWith, startingWith, startingWith, ← List.filter_append]
  simp [whole, Part.trimmed]

theorem startingWith_whole_of_not_mem {ps : List Part} {c : Char}
    (h : c ∉ ps.map Part.letter) : startingWith c ((whole ps).map Tree.trimmed) = [] := by
  induction ps with
  | nil => rfl
  | cons p ps ih =>
      rw [List.map_cons, List.mem_cons, not_or] at h
      rw [startingWith_whole_cons, if_neg (Ne.symm h.1), ih h.2, List.append_nil]

/-- Parts with different letters are found by their letters. -/
theorem map_startingWith_whole {ps : List Part} (h : (ps.map Part.letter).Nodup) :
    ((ps.map Part.letter).map fun c => startingWith c ((whole ps).map Tree.trimmed))
      = ps.map Part.trimmed := by
  induction ps with
  | nil => rfl
  | cons p ps ih =>
      rw [List.map_cons, List.nodup_cons] at h
      rw [List.map_cons, List.map_cons, List.map_cons, startingWith_whole_cons, if_pos rfl,
        startingWith_whole_of_not_mem h.1, List.append_nil, ← ih h.2]
      refine congrArg (p.trimmed :: ·) (List.map_congr_left fun c hc => ?_)
      rw [startingWith_whole_cons, if_neg (ne_of_mem_of_not_mem hc h.1).symm, List.nil_append]

theorem map_trimmed_eq_of_whole {ps qs : List Part} {letters : List Char}
    (hp : ps.map Part.letter = letters) (hq : qs.map Part.letter = letters)
    (nodup : letters.Nodup) (h : (of (whole ps)).trimmed = (of (whole qs)).trimmed) :
    ps.map Part.trimmed = qs.map Part.trimmed := by
  rw [← map_startingWith_whole (hp ▸ nodup), ← map_startingWith_whole (hq ▸ nodup), hp, hq,
    map_trimmed_eq h]

/-! ## Readable trees -/

theorem readable_node {t : Text} {body rest : Sketch} :
    Readable (.node t body rest) ↔ Text.IsLine t ∧ body.Readable ∧ rest.Readable :=
  Forest.forall_mem_labels_node

theorem readable_nil : Readable .nil := List.forall_mem_nil _

/-- Whether every line of a tree can be told from its blanks and from other lines. -/
def Tree.Readable (p : Tree) : Prop := Text.IsLine p.1 ∧ p.2.Readable

theorem readable_single {t : Text} (h : Text.IsLine t) : (Tree.single t).Readable :=
  ⟨h, readable_nil⟩

theorem readable_of {ps : List Tree} (h : ∀ p ∈ ps, p.Readable) : (of ps).Readable := by
  induction ps with
  | nil => exact readable_nil
  | cons p ps ih =>
      have h := List.forall_mem_cons.1 h
      exact readable_node.2 ⟨h.1.1, h.1.2, ih h.2⟩

end FlowGraph.Sketch
