import FlowGraph.Dot.Operation
import FlowGraph.Proofs.Dot.Coverage
import FlowGraph.Proofs.Dot.Naming

/-!
# Operations one after another

A drawing may be made by any operations in any order.  What an operation adds is a function of
the method and of the regions named before (`Drawing.after_eq`), and of these it takes the
numbers of clusters alone.  `operation_adds` says what that comes to at each operation of a
sequence: it adds the lines that it adds to an empty drawing, with other numbers.

A cluster has the number that its region has in the end, after all operations
(`Operation.clusters_lines`), since a region keeps its number.  The numbers of the end are
those of the order in which the regions first appear in the sequence.
-/

namespace FlowGraph.Dot

/-! ## Open clusters -/

/-- The number of clusters that are open after a line, with `n` open before it.  There is none
if the line has not the depth of the clusters around it, or if it closes a cluster where none
is open. -/
def NodeLine.openAfter (n : Nat) (l : NodeLine) : Option Nat :=
  match l.statement.bracket, n with
  | .opening, n => if l.depth = topDepth + n then some (n + 1) else none
  | .neutral, n => if l.depth = topDepth + n then some n else none
  | .closing, n + 1 => if l.depth = topDepth + n then some n else none
  | .closing, 0 => none

/-- The number of clusters that are open after some lines. -/
def openAfter (n : Nat) (ls : List NodeLine) : Option Nat := ls.foldlM NodeLine.openAfter n

theorem openAfter_append (n : Nat) (ls ls' : List NodeLine) :
    openAfter n (ls ++ ls') = (openAfter n ls).bind (openAfter · ls') := List.foldlM_append

theorem openAfter_cons (n : Nat) (l : NodeLine) (ls : List NodeLine) :
    openAfter n (l :: ls) = (l.openAfter n).bind (openAfter · ls) := List.foldlM_cons

section

variable (s : InstructionStyle) (m : Method)

/-- The line of a block outside all clusters, red or not. -/
def looseLine (p : Nat × Bool) : NodeLine := blockLine s m topDepth p.2 p.1

/-- Blocks neither open clusters nor close any. -/
theorem openAfter_looseLines (ps : List (Nat × Bool)) :
    openAfter 0 (ps.map (looseLine s m)) = some 0 := by
  induction ps with
  | nil => rfl
  | cons p ps ih => exact ih

/-- The lines of a forest close the clusters that they open. -/
theorem openAfter_forestLines (f : RegionForest) (around : Nat) (n : Numbering) :
    openAfter around (forestLines s m (topDepth + around) n f) = some around := by
  induction f generalizing around n with
  | nil => rfl
  | leaf i later ih =>
      have inside : (blockLine s m (topDepth + around) false i).openAfter around = some around :=
        if_pos rfl
      rw [forestLines, openAfter_cons, inside]
      exact ih around n
  | node r body later ihBody ihLater =>
      have opening : openAfter around (openingLines (topDepth + around) n r)
          = some (around + 1) := by
        simp [openAfter, openingLines, NodeLine.openAfter, NodeStatement.bracket, Nat.add_assoc]
      have closing : (NodeLine.mk (topDepth + around) .closeCluster).openAfter (around + 1)
          = some around := if_pos rfl
      have inside := ihBody (around + 1) (n.note r.key)
      have outside := ihLater around ((n.note r.key).noteForest body)
      rw [← Nat.add_assoc] at inside
      rw [forestLines, openAfter_append, openAfter_append, opening, Option.bind_some, inside,
        Option.bind_some, openAfter_cons, closing, Option.bind_some, outside]

end

/-! ## Numbers of clusters -/

/-- The kind and the number of the cluster that a line opens. -/
def NodeLine.cluster? (l : NodeLine) : Option (Text × Nat) :=
  match l.statement with
  | .openCluster kind number => some (kind, number)
  | _ => none

/-- A statement without the number of its cluster. -/
def NodeStatement.unnumbered : NodeStatement → NodeStatement
  | openCluster kind _ => openCluster kind 0
  | t => t

/-- A line without the number of its cluster. -/
def NodeLine.unnumbered (l : NodeLine) : NodeLine := ⟨l.depth, l.statement.unnumbered⟩

/-- Block lines have no number to leave out. -/
theorem isBlock_unnumbered (ls : List NodeLine) :
    (ls.map NodeLine.unnumbered).filter (·.statement.isBlock)
      = ls.filter (·.statement.isBlock) := by
  induction ls with
  | nil => rfl
  | cons l ls ih =>
      obtain ⟨depth, statement⟩ := l
      cases statement with
      | block id red label => exact congrArg (⟨depth, .block id red label⟩ :: ·) ih
      | _ => exact ih

/-- What a region is named as. -/
def RegionHead.subject (r : RegionHead) : Subject := .region r.key r.kind

namespace Numbering

theorem after_append (n : Numbering) (ts us : List Subject) :
    n.after (ts ++ us) = (n.after ts).after us := List.foldl_append

/-- The regions of a forest are named one after another. -/
theorem noteForest_eq (n : Numbering) (f : RegionForest) :
    n.noteForest f = n.after (f.labels.map RegionHead.subject) := by
  induction f generalizing n with
  | nil => rfl
  | leaf i later ih => exact ih n
  | node r body later ihBody ihLater =>
      rw [noteForest, ihBody, ihLater, ← after_append, ← List.map_append]
      rfl

/-- The region of a node keeps its number while the forest is named, and afterwards. -/
theorem number_noteForest_node (n : Numbering) (r : RegionHead) (body later : RegionForest)
    (ts : List Subject) :
    ((n.noteForest (.node r body later)).after ts).number r.key = n.number r.key := by
  rw [noteForest, noteForest_eq, noteForest_eq, ← after_append, ← after_append,
    number_after (n.mem_note r.key), number_note]

end Numbering

section

variable {s : InstructionStyle} {m : Method}

theorem unnumbered_forestLines (f : RegionForest) (depth : Nat) (n n' : Numbering) :
    (forestLines s m depth n f).map NodeLine.unnumbered
      = (forestLines s m depth n' f).map NodeLine.unnumbered := by
  induction f generalizing depth n n' with
  | nil => rfl
  | leaf i later ih => exact congrArg (_ :: ·) (ih depth n n')
  | node r body later ihBody ihLater =>
      simp only [forestLines, List.map_append, List.map_cons]
      rw [ihBody (depth + 1) (n.note r.key) (n'.note r.key),
        ihLater depth ((n.note r.key).noteForest body) ((n'.note r.key).noteForest body)]
      rfl

/-- The clusters of a forest have the numbers that their regions have after the forest, and
after whatever is named later. -/
theorem clusters_forestLines (f : RegionForest) (depth : Nat) (n : Numbering)
    (ts : List Subject) :
    (forestLines s m depth n f).filterMap NodeLine.cluster?
      = f.labels.map fun r => (r.kind, ((n.noteForest f).after ts).number r.key) := by
  induction f generalizing depth n ts with
  | nil => rfl
  | leaf i later ih => exact ih depth n ts
  | node r body later ihBody ihLater =>
      let noted := n.note r.key
      have whole : n.noteForest (.node r body later) = (noted.noteForest body).noteForest later :=
        rfl
      have inside := ihBody (depth + 1) noted (later.labels.map RegionHead.subject ++ ts)
      have outside := ihLater depth (noted.noteForest body) ts
      rw [Numbering.after_append, ← Numbering.noteForest_eq] at inside
      rw [Forest.labels, List.map_cons, List.map_append, Numbering.number_noteForest_node, whole,
        ← inside, ← outside, forestLines, List.filterMap_append, List.filterMap_append]
      rfl

theorem clusters_looseLines (ps : List (Nat × Bool)) :
    (ps.map (looseLine s m)).filterMap NodeLine.cluster? = [] := by
  induction ps with
  | nil => rfl
  | cons p ps ih => exact ih

end

/-! ## What an operation adds -/

namespace Operation

/-- The regions that an operation draws, as one forest. -/
@[simp] def forest (m : Method) : Operation → RegionForest
  | region r => r.toForest
  | regions => if m.region.isSome then Region.grove m.regions else .nil
  | block .. | blocks | name _ => .nil

/-- The blocks that an operation draws outside all clusters, each with whether it is red. -/
@[simp] def looseBlocks (m : Method) : Operation → List (Nat × Bool)
  | block i red => [(i, red)]
  | blocks => m.listed.map (·, false)
  | regions => if m.region.isSome then m.uncovered.map (·, true) else []
  | region _ | name _ => []

/-- The regions that an operation names, and the block that it names. -/
@[simp] def subjects (m : Method) : Operation → List Subject
  | name t => [t]
  | o => (o.forest m).labels.map RegionHead.subject

/-- The lines that an operation adds, given the regions named before. -/
def lines (s : InstructionStyle) (m : Method) (n : Numbering) (o : Operation) : List NodeLine :=
  forestLines s m topDepth n (o.forest m) ++ (o.looseBlocks m).map (looseLine s m)

/-- The edges that an operation adds. -/
def edges (m : Method) (o : Operation) : List Edge :=
  ((o.forest m).leaves ++ (o.looseBlocks m).map Prod.fst).flatMap (blockEdges m)

variable (s : InstructionStyle) (m : Method) (o : Operation)

theorem openAfter_lines (n : Numbering) : openAfter 0 (o.lines s m n) = some 0 := by
  have forest := openAfter_forestLines s m (o.forest m) 0 n
  rw [Nat.add_zero] at forest
  rw [lines, openAfter_append, forest]
  exact openAfter_looseLines s m (o.looseBlocks m)

theorem unnumbered_lines (n n' : Numbering) :
    (o.lines s m n).map NodeLine.unnumbered = (o.lines s m n').map NodeLine.unnumbered := by
  rw [lines, lines, List.map_append, List.map_append,
    unnumbered_forestLines (o.forest m) topDepth n n']

/-- A cluster has the number that its region has after the operation, and after whatever is
named later. -/
theorem clusters_lines (n : Numbering) (ts : List Subject) :
    (o.lines s m n).filterMap NodeLine.cluster?
      = (o.forest m).labels.map fun r =>
          (r.kind, (n.after (o.subjects m ++ ts)).number r.key) := by
  have drawn := clusters_forestLines (s := s) (m := m) (o.forest m) topDepth n ts
  rw [Numbering.noteForest_eq, ← Numbering.after_append] at drawn
  rw [lines, List.filterMap_append, clusters_looseLines, List.append_nil]
  cases o with
  | name t => rfl
  | _ => exact drawn

end Operation

namespace Drawing

variable (s : InstructionStyle) (m : Method)

/-- An operation adds its lines and its edges, and names its subjects. -/
theorem after_eq (d : Drawing) (o : Operation) :
    d.after s m o =
      { numbering := d.numbering.after (o.subjects m)
        nodes := d.nodes ++ o.lines s m d.numbering
        edges := d.edges ++ o.edges m } := by
  cases o with
  | block i red =>
      simp [after, perform, addBlock, Operation.lines, Operation.edges, forestLines, looseLine,
        Forest.leaves, Forest.labels, Numbering.after]
  | region r =>
      show d.addForest s m topDepth r.toForest = _
      rw [addForest_eq, Numbering.noteForest_eq]
      simp [Operation.lines, Operation.edges]
  | blocks =>
      show m.listed.foldl (addBlock s m topDepth false) d = _
      rw [foldl_addBlock]
      simp [Operation.lines, Operation.edges, forestLines, looseLine, Forest.leaves,
        Forest.labels, Numbering.after, Function.comp_def]
  | regions =>
      unfold after perform addRegions?
      by_cases root : m.region.isSome = true
      · simp only [if_pos root]
        rw [addRegions, foldl_addBlock, foldl_addRegion, addForest_eq, Numbering.noteForest_eq]
        simp [Operation.lines, Operation.edges, root, looseLine, Function.comp_def]
      · simp [Operation.lines, Operation.edges, root, forestLines, Forest.leaves, Forest.labels,
          Numbering.after]
  | name t =>
      simp [after, perform, Operation.lines, Operation.edges, forestLines, Forest.leaves,
        Numbering.after]

/-- Only drawing by regions can fail, and only for want of a root region. -/
theorem perform_eq_error_iff (d : Drawing) (o : Operation) (e : NoRegionTree) :
    d.perform s m o = .error e ↔ o = .regions ∧ m.region = none ∧ e = ⟨m.fullName⟩ := by
  cases o with
  | regions =>
      unfold perform addRegions?
      cases m.region with
      | none => simp [eq_comm]
      | some root => simp
  | _ => simp [perform]

end Drawing

/-! ## Sequences of operations -/

/-- The drawing after some operations. -/
def drawing (s : InstructionStyle) (m : Method) (os : List Operation) : Drawing :=
  os.foldl (Drawing.after s m) {}

/-- The regions that some operations name, each once, in the order in which they first
appear. -/
def namedRegions (m : Method) (os : List Operation) : List Nat :=
  appearances (os.flatMap (Operation.subjects m))

section

variable (s : InstructionStyle) (m : Method)

theorem drawing_concat (os : List Operation) (o : Operation) :
    drawing s m (os ++ [o]) = (drawing s m os).after s m o := List.foldl_concat ..

theorem numbering_drawing (os : List Operation) :
    (drawing s m os).numbering = ({} : Numbering).after (os.flatMap (Operation.subjects m)) := by
  induction os using List.reverseRecOn with
  | nil => rfl
  | append_singleton os o ih =>
      rw [drawing_concat, Drawing.after_eq, ih, ← Numbering.after_append, List.flatMap_append,
        List.flatMap_singleton]

theorem seen_drawing (os : List Operation) :
    (drawing s m os).numbering.seen = namedRegions m os := by
  rw [numbering_drawing, Numbering.seen_after_empty]
  rfl

theorem openAfter_drawing (os : List Operation) :
    openAfter 0 (drawing s m os).nodes = some 0 := by
  induction os using List.reverseRecOn with
  | nil => rfl
  | append_singleton os o ih =>
      rw [drawing_concat, Drawing.after_eq, openAfter_append, ih]
      exact o.openAfter_lines s m _

/-- What an operation adds to the drawing, between the operations before it and those after
it. -/
structure Adds (before : List Operation) (o : Operation) (later : List Operation)
    (lines : List NodeLine) (edges : List Edge) : Prop where
  /-- It adds lines at the end. -/
  nodes_eq : (drawing s m (before ++ [o])).nodes = (drawing s m before).nodes ++ lines
  /-- It adds edges at the end. -/
  edges_eq : (drawing s m (before ++ [o])).edges = (drawing s m before).edges ++ edges
  /-- No cluster is open before. -/
  starts : openAfter 0 (drawing s m before).nodes = some 0
  /-- Every line has the depth of the clusters around it, and the operation closes those that
  it opens and no other. -/
  nested : openAfter 0 lines = some 0
  /-- The lines are those that it adds to an empty drawing, but for the numbers of clusters. -/
  fresh_lines : lines.map NodeLine.unnumbered
    = (drawing s m [o]).nodes.map NodeLine.unnumbered
  /-- The clusters are those of the regions that it draws, each with the number of regions that
  appear before it in the whole sequence. -/
  numbers : lines.filterMap NodeLine.cluster? = (o.forest m).labels.map fun r =>
    (r.kind, (namedRegions m (before ++ o :: later)).idxOf r.key)
  /-- The lines of blocks are those that it adds to an empty drawing. -/
  fresh_blocks : lines.filter (·.statement.isBlock)
    = (drawing s m [o]).nodes.filter (·.statement.isBlock)
  /-- The edges are those that it adds to an empty drawing. -/
  fresh_edges : edges = (drawing s m [o]).edges
  /-- The name that it gives to a region has the same number as the cluster of the region. -/
  name : ∀ key kind, o = .name (.region key kind) →
    ((drawing s m before).numbering.name (.region key kind)).1
      = clusterName kind ((namedRegions m (before ++ o :: later)).idxOf key)
  /-- The regions that have been named are those that have appeared. -/
  seen : (drawing s m (before ++ [o])).numbering.seen = namedRegions m (before ++ [o])
  /-- It fails if it is to draw by regions a method without a root region. -/
  fails_iff : ∀ e, (drawing s m before).perform s m o = .error e ↔
    o = .regions ∧ m.region = none ∧ e = ⟨m.fullName⟩
  /-- If it fails everything stays as it was. -/
  failed : ∀ e, (drawing s m before).perform s m o = .error e →
    drawing s m (before ++ [o]) = drawing s m before

/-- Wherever an operation stands in a sequence, it adds its lines and its edges to the drawing.
They are what it adds to an empty drawing, but for the numbers of clusters, which are the places
of the regions in the order in which they first appear in the sequence. -/
theorem operation_adds (before : List Operation) (o : Operation) (later : List Operation) :
    Adds s m before o later (o.lines s m (drawing s m before).numbering) (o.edges m) := by
  let d := drawing s m before
  have next : drawing s m (before ++ [o]) = d.after s m o := drawing_concat s m before o
  have fresh : drawing s m [o] = Drawing.after s m {} o := rfl
  have lines := o.unnumbered_lines s m d.numbering {}
  -- The numbering after all operations, as one that continues the numbering here.
  have final : d.numbering.after (o.subjects m ++ later.flatMap (Operation.subjects m))
      = (drawing s m (before ++ o :: later)).numbering := by
    rw [numbering_drawing, numbering_drawing, ← Numbering.after_append, List.flatMap_append,
      List.flatMap_cons]
  refine {
    nodes_eq := by rw [next, Drawing.after_eq]
    edges_eq := by rw [next, Drawing.after_eq]
    starts := openAfter_drawing s m before
    nested := o.openAfter_lines s m d.numbering
    fresh_lines := ?_
    numbers := ?_
    fresh_blocks := ?_
    fresh_edges := ?_
    name := ?_
    seen := seen_drawing s m (before ++ [o])
    fails_iff := fun e => d.perform_eq_error_iff s m o e
    failed := fun e failed => by rw [next, Drawing.after_of_error failed] }
  · rw [fresh, Drawing.after_eq]
    exact lines
  · rw [o.clusters_lines s m d.numbering (later.flatMap (Operation.subjects m)), final,
      ← seen_drawing]
    rfl
  · rw [fresh, Drawing.after_eq, ← isBlock_unnumbered, lines, isBlock_unnumbered]
    rfl
  · rw [fresh, Drawing.after_eq]
    rfl
  · rintro key kind rfl
    have kept := Numbering.number_after (d.numbering.mem_note key)
      (later.flatMap (Operation.subjects m))
    rw [Numbering.number_note] at kept
    rw [← seen_drawing, ← final]
    exact congrArg (clusterName kind) kept.symm

/-- A region that is named before it is drawn keeps its number. -/
example :
    (drawing {} { className := [], shortId := [], region := some ⟨{ key := 4 }, .nil⟩ }
      [.name (.region 9 ['L']), .regions,
        .region ⟨{ key := 9, kind := ['L'] }, .nil⟩]).nodes.filterMap NodeLine.cluster?
      = [(lit "Region", 1), (['L'], 0)] := by
  decide +kernel

end

end FlowGraph.Dot
