import FlowGraph.Proofs.Dot.Clusters
import FlowGraph.Proofs.Method.Sketch

/-!
# Summaries of methods

The summary of a method is what its outline tells about it: its full name, the numbers and
contents of its blocks in order, the captions of its regions with the numbers of the blocks
inside them, and its handlers.  Blocks are referred to by their numbers, as they are in the
outline.

The outline is the sketch of the summary line by line (`Method.outlineLines_eq`), so that
methods with one summary have one outline.
-/

namespace FlowGraph

/-! ## What an outline tells -/

/-- What an outline tells about a region itself. -/
@[ext]
structure RegionCaption where
  /-- The kind of the region. -/
  kind : Text
  /-- Its description. -/
  description : Text
deriving DecidableEq, Repr

/-- What an outline tells about a region and everything inside it. -/
@[ext]
structure RegionSummary where
  /-- The region itself. -/
  caption : RegionCaption
  /-- The regions and the numbers of the blocks inside it, in order. -/
  body : Forest RegionCaption Int
deriving DecidableEq, Repr

/-- What an outline tells about a block. -/
@[ext]
structure BlockSummary where
  /-- The number of the block. -/
  id : Int
  /-- The code offset at which it starts. -/
  offset : Int
  /-- The numbers of its successors, in order. -/
  successors : List Int
  /-- The number of the block on its false path. -/
  elseTarget : Option Int
  /-- Its attributes. -/
  attributes : List Text
  /-- The kinds and texts of its instructions. -/
  instructions : List (Opcode × Text)
deriving DecidableEq, Repr

/-- What an outline tells about a handler. -/
@[ext]
structure HandlerSummary where
  /-- The type of exception it catches. -/
  catchType : Text
  /-- Its region, if it has one. -/
  region : Option RegionSummary
deriving DecidableEq, Repr

/-- What an outline tells about a method. -/
@[ext]
structure Summary where
  /-- The full name of the method. -/
  fullName : Text
  /-- The number of the block its code starts with. -/
  entry : Option Int
  /-- The attributes of the method. -/
  attributes : List Text
  /-- The blocks of its code, in order. -/
  blocks : List BlockSummary
  /-- The root of its region tree, if its code was structured. -/
  region : Option RegionSummary
  /-- Its exception handlers. -/
  handlers : List HandlerSummary
deriving DecidableEq, Repr

/-- What a region says about itself, without what tells it apart from others. -/
def RegionHead.caption (h : RegionHead) : RegionCaption := ⟨h.kind, h.description⟩

namespace Method

variable (m : Method)

/-- The forest of regions with captions over the numbers of blocks. -/
def captions (f : RegionForest) : Forest RegionCaption Int :=
  (f.mapLabels RegionHead.caption).mapLeaves m.blockId

/-- The summary of a region of the method. -/
def regionSummary (r : Region) : RegionSummary := ⟨r.head.caption, m.captions r.body⟩

/-- The summary of the block at a position. -/
def blockSummary (i : Nat) : BlockSummary where
  id := m.blockId i
  offset := (m.block i).offset
  successors := (m.block i).successors.map m.blockId
  elseTarget := (m.block i).elseTarget.map m.blockId
  attributes := (m.block i).attributes
  instructions := (m.block i).instructions.map fun i => (i.opcode, i.text)

/-- The summary of a handler of the method. -/
def handlerSummary (h : Handler) : HandlerSummary :=
  ⟨h.catchType, h.region.map m.regionSummary⟩

/-- What the outline of the method tells about it. -/
def summary : Summary where
  fullName := m.fullName
  entry := m.enterBlock.map m.blockId
  attributes := m.attributes
  blocks := m.listed.map m.blockSummary
  region := m.region.map m.regionSummary
  handlers := m.handlers.map m.handlerSummary

end Method

/-! ## The lines of a summary -/

open Sketch (Part Tree)

/-- The line of a region. -/
def RegionCaption.line (c : RegionCaption) : Text := c.kind ++ lit ": " ++ c.description

/-- A line for each region and each block of a forest. -/
def Sketch.ofRegions : Forest RegionCaption Int → Sketch
  | .nil => .nil
  | .leaf z rest => .node (lit "block " ++ Text.integer z) .nil (ofRegions rest)
  | .node c body rest => .node c.line (ofRegions body) (ofRegions rest)

/-- The line of a region, with what is inside it. -/
def Sketch.ofRegion (r : RegionSummary) : Sketch := .node r.caption.line (ofRegions r.body) .nil

/-- The line of a region, if there is one. -/
def Sketch.ofRegion? (r : Option RegionSummary) : Sketch := r.elim .nil ofRegion

/-- The line for the attributes, if there is one. -/
def attributePart (as : List Text) : Part where
  letter := 'a'
  trees :=
    if as.isEmpty then [] else [.single (lit "attributes: " ++ Text.list (as.map Text.quoted))]
  dark := by decide
  starts := by
    split
    · exact List.forall_mem_nil _
    · exact List.forall_mem_singleton.2 rfl

/-- The line of an instruction. -/
def instructionLine (i : Opcode × Text) : Text := i.1.name.map Char.toLower ++ ' ' :: i.2

namespace BlockSummary

variable (b : BlockSummary)

/-- The line of a block with its number and its offset. -/
def line : Text :=
  lit "block " ++ Text.integer b.id ++ lit " @ " ++ Text.offset b.offset ++ lit ":"

/-- The lines below that of a block, in parts. -/
def parts : List Part :=
  [{ letter := 's'
     trees := [.single (lit "successors: " ++ Text.list (b.successors.map Text.integer))]
     dark := by decide
     starts := List.forall_mem_singleton.2 rfl },
   { letter := 'e'
     trees := b.elseTarget.toList.map fun z => .single (lit "else: " ++ Text.integer z)
     dark := by decide
     starts := List.forall_mem_map.2 fun _ _ => rfl },
   attributePart b.attributes,
   { letter := 'i'
     trees := [(lit "instructions:",
       Sketch.of (b.instructions.map fun i => .single (instructionLine i)))]
     dark := by decide
     starts := List.forall_mem_singleton.2 rfl }]

/-- The lines below that of a block. -/
def body : Sketch := Sketch.of (Sketch.whole b.parts)

end BlockSummary

/-- The number of the entry block, or a dash. -/
def entryText (entry : Option Int) : Text := entry.elim (lit "-") Text.integer

namespace Summary

variable (s : Summary)

/-- The lines below that of a method, in parts. -/
def parts : List Part :=
  [{ letter := 'e'
     trees := [.single (lit "entry: " ++ entryText s.entry)]
     dark := by decide
     starts := List.forall_mem_singleton.2 rfl },
   attributePart s.attributes,
   { letter := 'b'
     trees := s.blocks.map fun b => (b.line, b.body)
     dark := by decide
     starts := List.forall_mem_map.2 fun _ _ => rfl },
   { letter := 'r'
     trees := s.region.toList.map fun r => (lit "regions:", Sketch.ofRegion r)
     dark := by decide
     starts := List.forall_mem_map.2 fun _ _ => rfl },
   { letter := 'h'
     trees := s.handlers.map fun h =>
       (lit "handler " ++ h.catchType ++ lit ":", Sketch.ofRegion? h.region)
     dark := by decide
     starts := List.forall_mem_map.2 fun _ _ => rfl }]

/-- The lines of the summary. -/
def sketch : Sketch := .node (s.fullName ++ lit ":") (Sketch.of (Sketch.whole s.parts)) .nil

end Summary

/-! ## The outline is the sketch of the summary -/

namespace Method

variable (m : Method)

theorem forestOutline_eq (level : Nat) (f : RegionForest) :
    m.forestOutline level f = (Sketch.ofRegions (m.captions f)).lines level := by
  induction f generalizing level with
  | nil => rfl
  | leaf i rest ih =>
      rw [forestOutline, ih]
      simp [captions, Forest.mapLabels, Forest.mapLeaves, Sketch.ofRegions]
  | node r body rest ihBody ihRest =>
      rw [forestOutline, ihBody, ihRest]
      simp [captions, Forest.mapLabels, Forest.mapLeaves, Sketch.ofRegions, RegionCaption.line,
        RegionHead.caption]

theorem regionOutline_eq (r : Option Region) :
    m.regionOutline r = (Sketch.ofRegion? (r.map m.regionSummary)).lines 2 := by
  cases r with
  | none => rfl
  | some r => exact m.forestOutline_eq 2 r.toForest

theorem attributeOutline_eq (level : Nat) (as : List Text) :
    attributeOutline level as
      = (attributePart as).trees.flatMap fun p => indented level p.1 :: p.2.lines (level + 1) := by
  unfold attributeOutline attributePart
  split <;> simp

theorem blockOutline_eq (i : Nat) :
    m.blockOutline i = indented 1 (m.blockSummary i).line :: (m.blockSummary i).body.lines 2 := by
  have instructions : (m.block i).instructions.map Instruction.outline
      = (Sketch.of ((m.blockSummary i).instructions.map fun n =>
          Tree.single (instructionLine n))).lines 3 := by
    simp only [Sketch.lines_of, blockSummary, List.map_map, List.flatMap_map]
    exact List.map_eq_flatMap
  have successors : m.idList (m.block i).successors
      = Text.list ((m.blockSummary i).successors.map Text.integer) := by
    rw [idList, blockSummary, List.map_map]
    rfl
  rw [blockOutline, instructions, successors, attributeOutline_eq]
  simp only [BlockSummary.body, BlockSummary.line, BlockSummary.parts, Sketch.whole,
    List.flatMap_cons, List.flatMap_nil, Sketch.lines_of _ (_ ++ _)]
  simp only [blockSummary, blockId]
  cases (m.block i).elseTarget <;> simp [blockId]

theorem handlerOutline_eq (h : Handler) :
    m.handlerOutline h
      = indented 1 (lit "handler " ++ h.catchType ++ lit ":")
        :: (Sketch.ofRegion? (h.region.map m.regionSummary)).lines 2 := by
  rw [handlerOutline, regionOutline_eq]

theorem outlineLines_eq : m.outlineLines = m.summary.sketch.lines 0 := by
  simp only [outlineLines, funext m.blockOutline_eq, funext m.handlerOutline_eq,
    regionOutline_eq, attributeOutline_eq, Summary.sketch, Summary.parts, summary,
    Sketch.lines_node, Sketch.lines_of, Sketch.whole, List.flatMap_cons, List.flatMap_nil]
  cases m.enterBlock <;> cases m.region <;>
    simp [entryText, indented, List.flatMap_map, handlerSummary, Sketch.ofRegion?]

end Method

end FlowGraph
