import Mathlib.Data.List.Forall2
import FlowGraph.Proofs.Dot.Nesting

/-!
# Coverage by regions

A method drawn by its regions shows two kinds of block.  The blocks that the regions hold
stand plainly inside the clusters of these regions, and the blocks of the code that no
region holds stand in red outside all clusters.  `regionSequence` lists both in the order
in which they are drawn, by position in the table and not by number.

`addRegions_shows` says that a drawing shows exactly this sequence, whatever is shared and
whichever numbers blocks have in common.  A block is shown by a line with its number and its
caption, and by an edge to each of its successors, which is dotted on the false path.  The
other lemmas are about the sequence alone: which blocks are in it, which in red, and how often.
-/

namespace FlowGraph.Dot

/-! ## What a drawing shows -/

/-- Whether a statement is the node of a block. -/
def NodeStatement.isBlock : NodeStatement → Bool
  | block .. => true
  | _ => false

/-- The nodes of blocks among some lines, each with the number of clusters around it. -/
def placedBlocks (ls : List NodeLine) : List (Int × NodeLine) :=
  ((enclosing 0 (ls.map (·.statement.bracket))).zip ls).filter (·.2.statement.isBlock)

/-- Whether a line with so many clusters around it draws the block at a position, in red outside
the clusters or plainly inside some.  The line has the number of the block and its caption, and
it is indented by a tab for each of the clusters and one more. -/
def Draws (s : InstructionStyle) (m : Method) (p : Nat × Bool) (q : Int × NodeLine) : Prop :=
  ∃ (clusters : Nat) (b : Block), m.blocks.getD p.1 .blank = b ∧
    q = ((clusters : Int), ⟨clusters + 1, .block b.id p.2 (blockCaption s b)⟩) ∧
    (p.2 = true ↔ clusters = 0)

/-- Whether an edge joins the block at a position to the block at another, from number to number.
It is dotted exactly on the false path. -/
def Joins (m : Method) (a : Nat × Nat) (e : Edge) : Prop :=
  ∃ b b', m.blocks.getD a.1 .blank = b ∧ m.blocks.getD a.2 .blank = b' ∧
    e.source = b.id ∧ e.target = b'.id ∧ (e.dotted = true ↔ b.FalsePath a.2)

/-- Some blocks in order, each paired with its successors, by position. -/
def successorPairs (m : Method) (is : List Nat) : List (Nat × Nat) :=
  is.flatMap fun i => (m.blocks.getD i .blank).successors.map (i, ·)

/-- Whether a drawing shows some blocks in order, and their edges in the same order. -/
structure Drawing.Shows (s : InstructionStyle) (m : Method) (d : Drawing)
    (blocks : List (Nat × Bool)) : Prop where
  /-- The nodes are those of the blocks. -/
  nodes : List.Forall₂ (Draws s m) blocks (placedBlocks d.nodes)
  /-- The edges are those from each block to its successors. -/
  edges : List.Forall₂ (Joins m) (successorPairs m (blocks.map Prod.fst)) d.edges

/-- The blocks that the root region and the regions of the handlers hold, by position and with
repetitions. -/
def heldBlocks (root : Region) (m : Method) : List Nat :=
  (root :: m.handlers.filterMap Handler.region).flatMap Region.blocks

/-- The positions of the blocks drawn by regions, each with whether it is red: what the root
region and the regions of the handlers hold, and then what of the code none of them holds. -/
def regionSequence (root : Region) (m : Method) : List (Nat × Bool) :=
  let held := heldBlocks root m
  held.map (·, false) ++ (m.listed.filter (· ∉ held)).map (·, true)

/-! ## The nodes of a drawing -/

section

variable {s : InstructionStyle} {m : Method}

/-- A line of a drawing stands inside as many clusters as its indentation says. -/
theorem placedBlocks_drawnLines (v : View) :
    placedBlocks (drawnLines v s m)
      = ((drawnLines v s m).filter (·.statement.isBlock)).map fun l => (l.level, l) := by
  have levels := enclosing_drawnLines s m v []
  rw [List.append_nil, enclosing, List.append_nil] at levels
  rw [placedBlocks, levels, ← List.map_prod_right_eq_zip, List.filter_map]
  rfl

/-- The blocks of a forest are drawn plainly, at its own depth or deeper. -/
theorem isBlock_forestLines (f : RegionForest) (depth : Nat) (n : Numbering) :
    List.Forall₂ (fun i l => ∃ k, l = blockLine s m (depth + k) false i) f.leaves
      ((forestLines s m depth n f).filter (·.statement.isBlock)) := by
  induction f generalizing depth n with
  | nil => exact .nil
  | leaf i later ih => exact .cons ⟨0, rfl⟩ (ih depth n)
  | node r body later ihBody ihLater =>
      have inner := (ihBody (depth + 1) (n.note r.key)).imp fun i l ⟨k, same⟩ =>
        show ∃ k, l = blockLine s m (depth + k) false i from
          ⟨1 + k, Nat.add_assoc depth 1 k ▸ same⟩
      have outer := ihLater depth ((n.note r.key).noteForest body)
      simpa [forestLines, openingLines, NodeStatement.isBlock, Forest.leaves]
        using List.rel_append inner outer

/-- The blocks of regions are drawn deeper than the regions themselves. -/
theorem isBlock_groveLines (rs : List Region) (n : Numbering) :
    List.Forall₂ (fun i l => ∃ k, l = blockLine s m (topDepth + 1 + k) false i)
      (coveredBlocks rs)
      ((forestLines s m topDepth n (Region.grove rs)).filter (·.statement.isBlock)) := by
  induction rs generalizing n with
  | nil => exact .nil
  | cons r rs ih =>
      have inner := isBlock_forestLines (s := s) (m := m) r.body (topDepth + 1) (n.note r.head.key)
      have outer := ih ((n.note r.head.key).noteForest r.body)
      simpa [Region.grove, forestLines, openingLines, NodeStatement.isBlock, coveredBlocks,
        Region.blocks] using List.rel_append inner outer

theorem draws_plain (i k : Nat) :
    Draws s m (i, false) ((blockLine s m (topDepth + 1 + k) false i).level,
      blockLine s m (topDepth + 1 + k) false i) := by
  have depth : topDepth + 1 + k = k + 1 + 1 := by
    simp only [topDepth]
    omega
  have level : ((k + 1 + 1 : Nat) : Int) - topDepth = ((k + 1 : Nat) : Int) := by
    simp only [topDepth]
    omega
  rw [depth]
  refine ⟨k + 1, _, rfl, ?_, by simp⟩
  rw [← blockLabel_eq]
  exact congrArg (·, _) level

theorem draws_red (i : Nat) :
    Draws s m (i, true) ((blockLine s m topDepth true i).level, blockLine s m topDepth true i) := by
  refine ⟨0, _, rfl, ?_, by simp⟩
  rw [← blockLabel_eq]
  rfl

/-- The edges of some blocks join them to their successors. -/
theorem joins_blockEdges (m : Method) (is : List Nat) :
    List.Forall₂ (Joins m) (successorPairs m is) (is.flatMap (blockEdges m)) := by
  have edges : is.flatMap (blockEdges m) = (successorPairs m is).map fun a =>
      ⟨m.blockId a.1, m.blockId a.2, (m.block a.1).elseTarget = some a.2⟩ := by
    rw [successorPairs, List.map_flatMap]
    refine List.flatMap_congr fun i _ => ?_
    rw [List.map_map]
    rfl
  rw [edges, List.forall₂_map_right_iff, List.forall₂_same]
  intro a _
  exact ⟨_, _, rfl, rfl, rfl, rfl, decide_eq_true_iff.trans Block.elseTarget_eq_some_iff⟩

theorem regionSequence_eq {root : Region} (h : m.region = some root) : regionSequence root m =
    (coveredBlocks m.regions).map (·, false) ++ m.uncovered.map (·, true) := by
  have held : coveredBlocks m.regions = heldBlocks root m := by
    rw [Method.regions, h]
    rfl
  rw [Method.uncovered, held]
  rfl

/-- Drawing by regions on an empty drawing shows the held blocks plainly and then the others
in red. -/
theorem addRegions_shows {root : Region} (h : m.region = some root) :
    (Drawing.addRegions s m {}).Shows s m (regionSequence root m) := by
  let view : View := { regions := true, raw := s.raw }
  have nodes : (Drawing.addRegions s m {}).nodes = drawnLines view s m :=
    nodes_draw view s.printer m
  have edges : (Drawing.addRegions s m {}).edges = (drawnBlocks view m).flatMap (blockEdges m) :=
    edges_draw view s.printer m
  rw [regionSequence_eq h]
  refine ⟨?_, ?_⟩
  · rw [nodes, placedBlocks_drawnLines, drawnLines, if_pos rfl, List.filter_append,
      List.map_append]
    refine List.rel_append ?_ ?_
    · rw [List.forall₂_map_left_iff, List.forall₂_map_right_iff]
      exact (isBlock_groveLines m.regions {}).imp fun i l ⟨k, same⟩ => same ▸ draws_plain i k
    · have red : ∀ l ∈ m.uncovered.map (blockLine s m topDepth true), l.statement.isBlock := by
        intro l hl
        obtain ⟨i, -, rfl⟩ := List.mem_map.1 hl
        rfl
      rw [List.filter_eq_self.2 red, List.map_map, List.forall₂_map_left_iff,
        List.forall₂_map_right_iff]
      exact List.forall₂_same.2 fun i _ => draws_red i
  · have drawn : ((coveredBlocks m.regions).map (·, false)
        ++ m.uncovered.map (·, true)).map Prod.fst = drawnBlocks view m := by
      rw [drawnBlocks, if_pos rfl, List.map_append, List.map_map, List.map_map]
      exact congrArg₂ (· ++ ·) (List.map_id _) (List.map_id _)
    rw [edges, drawn]
    exact joins_blockEdges m _

end

/-! ## The sequence of blocks -/

section

variable {root : Region} {m : Method} {i : Nat}

theorem mem_regionSequence {red : Bool} : (i, red) ∈ regionSequence root m ↔
    if red then i ∈ m.listed ∧ i ∉ heldBlocks root m else i ∈ heldBlocks root m := by
  cases red <;> simp [regionSequence]

/-- How often a block is drawn: as often as the regions hold it, or else as often as it stands
in the code. -/
theorem count_regionSequence : ((regionSequence root m).map Prod.fst).count i =
    if i ∈ heldBlocks root m then (heldBlocks root m).count i else m.listed.count i := by
  simp only [regionSequence, List.map_append, List.map_map, Function.comp_def, List.map_id',
    List.count_append]
  split
  · next held =>
      have none : i ∉ m.listed.filter (· ∉ heldBlocks root m) := by simp [held]
      rw [List.count_eq_zero.2 none, Nat.add_zero]
  · next free =>
      rw [List.count_eq_zero.2 free, Nat.zero_add, List.count_filter (by simp [free])]

end

/-- A method with a root region can be drawn by regions.  Every block of the code is drawn, in
red exactly if no region holds it.  It is drawn once exactly if the regions hold it at
most once and, where they do not hold it, the code has it once. -/
theorem addRegions_partitions (s : InstructionStyle) {m : Method} {root : Region}
    (h : m.region = some root) :
    ∃ d, Drawing.addRegions? s m {} = .ok d ∧ d.Shows s m (regionSequence root m) ∧
      ∀ i ∈ m.listed,
        (∃ red, (i, red) ∈ regionSequence root m) ∧
        (∀ red, (i, red) ∈ regionSequence root m → (red = true ↔ i ∉ heldBlocks root m)) ∧
        (((regionSequence root m).map Prod.fst).count i = 1 ↔
          (heldBlocks root m).count i ≤ 1 ∧
            (i ∉ heldBlocks root m → m.listed.count i = 1)) := by
  refine ⟨_, if_pos (Option.isSome_iff_exists.2 ⟨root, h⟩), addRegions_shows h, fun i hi => ?_⟩
  by_cases held : i ∈ heldBlocks root m
  · refine ⟨⟨false, mem_regionSequence.2 held⟩, fun red mem => ?_, ?_⟩
    · cases red with
      | false => simp [held]
      | true => exact absurd held (mem_regionSequence.1 mem).2
    · rw [count_regionSequence, if_pos held]
      have positive := List.count_pos_iff.2 held
      constructor
      · exact fun once => ⟨Nat.le_of_eq once, fun free => absurd held free⟩
      · exact fun ⟨atMost, _⟩ => Nat.le_antisymm atMost positive
  · refine ⟨⟨true, mem_regionSequence.2 ⟨hi, held⟩⟩, fun red mem => ?_, ?_⟩
    · cases red with
      | false => exact absurd (mem_regionSequence.1 mem) held
      | true => simp [held]
    · rw [count_regionSequence, if_neg held, List.count_eq_zero.2 held]
      exact ⟨fun once => ⟨Nat.zero_le 1, fun _ => once⟩, fun ⟨_, once⟩ => once held⟩

/-- A method whose regions share blocks and one another, with blocks of one number. -/
def sharedMethod : Method where
  className := lit "p.A"
  shortId := lit "f()V"
  blocks := [{ id := 1, successors := [1, 2] }, { id := 1 }, { id := -3 }, { id := 4 }]
  listed := [0, 1, 2, 2, 3]
  region := some ⟨{ key := 0 },
    .leaf 0 (.node { key := 1 } (.leaf 1 .nil) (.node { key := 1 } (.leaf 1 .nil) .nil))⟩
  handlers := [{}, { region := some ⟨{ key := 1 }, .leaf 1 .nil⟩ }]

theorem sharedMethod_partitions :
    ∃ root d, sharedMethod.region = some root ∧
      Drawing.addRegions? {} sharedMethod {} = .ok d ∧
      d.Shows {} sharedMethod
        ([0, 1, 1, 1].map (·, false) ++ [2, 2, 3].map (·, true)) ∧
      ((regionSequence root sharedMethod).map Prod.fst).count 3 = 1 := by
  obtain ⟨d, drawn, shows, blocks⟩ := addRegions_partitions {} (m := sharedMethod) rfl
  have once := (blocks 3 (by decide)).2.2.2 ⟨by decide, fun _ => by decide⟩
  exact ⟨_, d, rfl, drawn, shows, once⟩

end FlowGraph.Dot
