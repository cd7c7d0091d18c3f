import FlowGraph.Dot.Label
import FlowGraph.Dot.Statement

/-!
# Drawing a method

A *drawing* collects the statements of a graph.  Nodes and clusters are kept apart
from edges, so that a document can list every node before the first edge.

Blocks are drawn one by one, or by regions: each region is a cluster around what it
holds, and the blocks that no region reaches come last, outlined in red.  Each
operation only adds at the end of what has been drawn.
-/

namespace FlowGraph.Dot

/-- The statements drawn so far.  The depth at which statements are drawn is no part of it: it is
passed down the recursion of `addForest`, and between operations it is always `topDepth`. -/
structure Drawing where
  /-- The regions named so far. -/
  numbering : Numbering := {}
  /-- The nodes and clusters. -/
  nodes : List NodeLine := []
  /-- The edges. -/
  edges : List Edge := []
deriving DecidableEq, Repr

/-- The depth at which a graph's own statements stand. -/
def topDepth : Nat := 1

/-! ## Labels -/

/-- A part of a label behind a separator, or nothing if the part is empty. -/
def labelPart (separator part : Text) : Text := if part.isEmpty then [] else separator ++ part

/-- The label of a block: its number and offset, its attributes and its instructions. -/
def blockLabel (s : InstructionStyle) (b : Block) : Text :=
  Text.integer b.id ++ lit "\\:\\ " ++ Text.offset b.offset
    ++ labelPart ['|'] (attributeLines b.attributes)
    ++ labelPart ['|'] (s.lines b.instructions)

/-- The label of a cluster: the description of the region and its attributes. -/
def clusterLabel (r : RegionHead) : Text :=
  escape r.description ++ labelPart (lit " | ") (attributeLines r.attributes)

/-! ## Blocks -/

/-- The node of the block at a position. -/
def blockLine (s : InstructionStyle) (m : Method) (depth : Nat) (red : Bool) (i : Nat) :
    NodeLine :=
  ⟨depth, .block (m.blockId i) red (blockLabel s (m.block i))⟩

/-- The edges of the block at a position, in the order of its successors. -/
def blockEdges (m : Method) (i : Nat) : List Edge :=
  (m.block i).successors.map fun j =>
    ⟨m.blockId i, m.blockId j, (m.block i).elseTarget = some j⟩

namespace Drawing

/-- Draws the block at a position. -/
def addBlock (s : InstructionStyle) (m : Method) (depth : Nat) (red : Bool) (d : Drawing)
    (i : Nat) : Drawing :=
  { d with nodes := d.nodes ++ [blockLine s m depth red i], edges := d.edges ++ blockEdges m i }

/-- Draws the blocks of the code one by one. -/
def addBlocks (s : InstructionStyle) (m : Method) (d : Drawing) : Drawing :=
  m.listed.foldl (addBlock s m topDepth false) d

/-! ## Regions -/

/-- Opens the cluster of a region, with its label and style one level deeper. -/
def openCluster (depth : Nat) (r : RegionHead) (d : Drawing) : Drawing :=
  { d with
    numbering := d.numbering.note r.key
    nodes := d.nodes ++
      [⟨depth, .openCluster r.kind (d.numbering.number r.key)⟩,
       ⟨depth + 1, .clusterLabel (clusterLabel r)⟩,
       ⟨depth + 1, .clusterStyle⟩] }

/-- Closes a cluster. -/
def closeCluster (depth : Nat) (d : Drawing) : Drawing :=
  { d with nodes := d.nodes ++ [⟨depth, .closeCluster⟩] }

/-- Draws a forest of regions. -/
def addForest (s : InstructionStyle) (m : Method) : Nat → Drawing → RegionForest → Drawing
  | _, d, .nil => d
  | depth, d, .leaf i rest => addForest s m depth (d.addBlock s m depth false i) rest
  | depth, d, .node r body rest =>
      addForest s m depth
        ((addForest s m (depth + 1) (d.openCluster depth r) body).closeCluster depth) rest

/-- Draws a region. -/
def addRegion (s : InstructionStyle) (m : Method) (d : Drawing) (r : Region) : Drawing :=
  d.addForest s m topDepth r.toForest

/-- Draws the regions of the method and its handlers, and then in red the blocks that
they leave out. -/
def addRegions (s : InstructionStyle) (m : Method) (d : Drawing) : Drawing :=
  m.uncovered.foldl (addBlock s m topDepth true) (m.regions.foldl (addRegion s m) d)

/-- The reason why a method cannot be drawn by regions. -/
structure NoRegionTree where
  /-- The full name of the method. -/
  method : Text
deriving DecidableEq, Repr

/-- The message for a method that cannot be drawn by regions. -/
def NoRegionTree.message (e : NoRegionTree) : Text := e.method ++ lit " has no region tree"

/-- Draws the method by its regions, unless it has no region tree. -/
def addRegions? (s : InstructionStyle) (m : Method) (d : Drawing) :
    Except NoRegionTree Drawing :=
  if m.region.isSome then .ok (d.addRegions s m) else .error ⟨m.fullName⟩

end Drawing

end FlowGraph.Dot
