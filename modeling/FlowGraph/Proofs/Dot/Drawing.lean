import FlowGraph.Dot.Document

/-!
# What drawing adds

Every operation on a drawing adds statements at its end.  This module says which, by
functions on the method that know nothing of the drawing before.  `blockCaption` and
`clusterCaption` write out what the labels of blocks and clusters say.  `forestLines` are the
lines of a forest of regions.  They depend on the regions named so far through the numbers
of the clusters alone.  The edges of a forest are those of its leaves, in order.

`nodes_draw` and `edges_draw` give the statements of a whole document, flat or by regions,
and `lines_document` its lines.
-/

namespace FlowGraph

/-- Regions side by side, as one forest. -/
def Region.grove : List Region → RegionForest
  | [] => .nil
  | r :: rs => .node r.head r.body (grove rs)

theorem Region.leaves_grove : ∀ rs : List Region, (grove rs).leaves = coveredBlocks rs
  | [] => rfl
  | r :: rs => by
      simp only [grove, Forest.leaves, leaves_grove rs]
      rfl

namespace Dot

/-! ## Captions -/

/-- What the node of a block says: its number and offset, then its attributes and the lines of
its instructions, each behind a bar if there are any. -/
def blockCaption (s : InstructionStyle) (b : Block) : Text :=
  lit (toString b.id) ++ lit "\\:\\ " ++ Text.offset b.offset
    ++ (if b.attributes = [] then []
        else '|' :: b.attributes.flatMap fun a => escape a ++ lineEnd)
    ++ (if s.lines b.instructions = [] then [] else '|' :: s.lines b.instructions)

/-- What a cluster says: the description of the region, and then behind a bar its attributes, if it
has any. -/
def clusterCaption (r : RegionHead) : Text :=
  escape r.description
    ++ if r.attributes = [] then []
       else lit " | " ++ r.attributes.flatMap fun a => escape a ++ lineEnd

theorem blockLabel_eq (s : InstructionStyle) (b : Block) : blockLabel s b = blockCaption s b := by
  simp only [blockLabel, blockCaption, labelPart, List.isEmpty_iff, attributeLines_eq_nil_iff,
    Text.integer_eq_toString]
  rfl

theorem clusterLabel_eq (r : RegionHead) : clusterLabel r = clusterCaption r := by
  simp only [clusterLabel, clusterCaption, labelPart, List.isEmpty_iff, attributeLines_eq_nil_iff]
  rfl

/-! ## Blocks -/

/-- Blocks drawn one by one add their lines and their edges. -/
theorem Drawing.foldl_addBlock (s : InstructionStyle) (m : Method) (depth : Nat) (red : Bool) :
    ∀ (is : List Nat) (d : Drawing), is.foldl (addBlock s m depth red) d =
      { d with
        nodes := d.nodes ++ is.map (blockLine s m depth red)
        edges := d.edges ++ is.flatMap (blockEdges m) }
  | [], d => by simp
  | i :: is, d => by
      rw [List.foldl_cons, foldl_addBlock s m depth red is]
      simp [addBlock]

/-! ## Forests -/

/-- The numbering after the regions of a forest have been named. -/
def Numbering.noteForest : Numbering → RegionForest → Numbering
  | n, .nil => n
  | n, .leaf _ rest => n.noteForest rest
  | n, .node r body rest => ((n.note r.key).noteForest body).noteForest rest

/-- The lines that open the cluster of a region. -/
def openingLines (depth : Nat) (n : Numbering) (r : RegionHead) : List NodeLine :=
  [⟨depth, .openCluster r.kind (n.number r.key)⟩,
   ⟨depth + 1, .clusterLabel (clusterLabel r)⟩,
   ⟨depth + 1, .clusterStyle⟩]

/-- The lines of a forest, given the regions named before. -/
def forestLines (s : InstructionStyle) (m : Method) : Nat → Numbering → RegionForest → List NodeLine
  | _, _, .nil => []
  | depth, n, .leaf i rest => blockLine s m depth false i :: forestLines s m depth n rest
  | depth, n, .node r body rest =>
      openingLines depth n r ++ forestLines s m (depth + 1) (n.note r.key) body
        ++ ⟨depth, .closeCluster⟩ :: forestLines s m depth ((n.note r.key).noteForest body) rest

/-- A forest adds its lines and the edges of its leaves. -/
theorem Drawing.addForest_eq (s : InstructionStyle) (m : Method) :
    ∀ (f : RegionForest) (depth : Nat) (d : Drawing), d.addForest s m depth f =
      { numbering := d.numbering.noteForest f
        nodes := d.nodes ++ forestLines s m depth d.numbering f
        edges := d.edges ++ f.leaves.flatMap (blockEdges m) }
  | .nil, depth, d => by
      simp [addForest, Numbering.noteForest, forestLines, Forest.leaves]
  | .leaf i rest, depth, d => by
      rw [addForest, addForest_eq s m rest]
      simp [addBlock, Numbering.noteForest, forestLines, Forest.leaves]
  | .node r body rest, depth, d => by
      rw [addForest, addForest_eq s m body, addForest_eq s m rest]
      simp [closeCluster, openCluster, openingLines, Numbering.noteForest, forestLines,
        Forest.leaves]

/-- Regions drawn one after another are drawn as one forest. -/
theorem Drawing.foldl_addRegion (s : InstructionStyle) (m : Method) :
    ∀ (rs : List Region) (d : Drawing),
      rs.foldl (addRegion s m) d = d.addForest s m topDepth (Region.grove rs)
  | [], _ => rfl
  | r :: rs, d => by
      rw [List.foldl_cons, foldl_addRegion s m rs]
      rfl

/-! ## Documents -/

/-- The blocks that a view draws, in order and with repetitions. -/
def drawnBlocks (v : View) (m : Method) : List Nat :=
  if v.regions then coveredBlocks m.regions ++ m.uncovered else m.listed

/-- The lines of a method's nodes and clusters in a view. -/
def drawnLines (v : View) (s : InstructionStyle) (m : Method) : List NodeLine :=
  if v.regions then
    forestLines s m topDepth {} (Region.grove m.regions)
      ++ m.uncovered.map (blockLine s m topDepth true)
  else m.listed.map (blockLine s m topDepth false)

theorem nodes_draw (v : View) (printer : Printer) (m : Method) :
    (draw v printer m).nodes = drawnLines v ⟨v.raw, printer⟩ m := by
  unfold draw drawnLines
  split
  · simp [Drawing.addRegions, Drawing.foldl_addBlock, Drawing.foldl_addRegion,
      Drawing.addForest_eq]
  · simp [Drawing.addBlocks, Drawing.foldl_addBlock]

theorem edges_draw (v : View) (printer : Printer) (m : Method) :
    (draw v printer m).edges = (drawnBlocks v m).flatMap (blockEdges m) := by
  unfold draw drawnBlocks
  split
  · simp [Drawing.addRegions, Drawing.foldl_addBlock, Drawing.foldl_addRegion,
      Drawing.addForest_eq, Region.leaves_grove]
  · simp [Drawing.addBlocks, Drawing.foldl_addBlock]

/-- The lines after the node of the method: its entry edge and the edges of the drawn
blocks. -/
def edgeLines (v : View) (m : Method) : List Text :=
  m.enterBlock.toList.map (fun i => Document.entryLine (m.blockId i))
    ++ ((drawnBlocks v m).flatMap (blockEdges m)).map Edge.text

theorem lines_document (v : View) (printer : Printer) (m : Method) :
    (document v printer m).lines =
      [lit "digraph " ++ quote (lit "CFG for" ++ escape m.fullName) ++ [' ', '{']]
        ++ (drawnLines v ⟨v.raw, printer⟩ m).map NodeLine.text
        ++ [lit "\tMethodNode[shape=record,label=" ++ record (methodLabel m) ++ lit "];"]
        ++ edgeLines v m ++ [['}']] := by
  simp only [Document.lines, Document.methodLine, document, nodes_draw, edges_draw, edgeLines,
    List.append_assoc]
  cases m.enterBlock <;> rfl

end Dot

end FlowGraph
