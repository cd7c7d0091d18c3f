import FlowGraph.Forest
import FlowGraph.Method.Opcode

/-!
# Methods

A *method* is a table of basic blocks with a signature and, if the code was
structured, a tree of regions over the blocks.

Every reference to a block is a position in the table.  Blocks are therefore told
apart by position and never by their numbers, of which several blocks may have the
same.  A position outside the table refers to `Block.blank`; a method read from a
listing has no such reference.

A region is told apart from others by its key.  Where one region stands at several
places of the forest, all of them carry the same key.
-/

namespace FlowGraph

/-! ## Blocks -/

/-- An instruction of a block. -/
structure Instruction where
  /-- Its kind. -/
  opcode : Opcode := .nop
  /-- Its text. -/
  text : Text := []
  /-- Its attributes. -/
  attributes : List Text := []
  /-- For a conditional branch, the position of the block on its false path. -/
  elseTarget : Option Nat := none
deriving DecidableEq, Repr

/-- A basic block: straight-line instructions with ordered successors. -/
structure Block where
  /-- Its number. -/
  id : Int := 0
  /-- The code offset at which it starts. -/
  offset : Int := 0
  /-- Its attributes. -/
  attributes : List Text := []
  /-- Its instructions. -/
  instructions : List Instruction := []
  /-- The positions of its successors, in order. -/
  successors : List Nat := []
deriving DecidableEq, Repr

/-- The block without content. -/
def Block.blank : Block := {}

/-- The false path of a block: the else target of its first instruction, if that is a
conditional branch. -/
def Block.elseTarget (b : Block) : Option Nat :=
  match b.instructions with
  | i :: _ => if i.opcode = .branch then i.elseTarget else none
  | [] => none

/-- Whether a block starts with a conditional branch that has this else target. -/
def Block.FalsePath (b : Block) (j : Nat) : Prop :=
  ∃ i rest, b.instructions = i :: rest ∧ i.opcode = .branch ∧ i.elseTarget = some j

theorem Block.elseTarget_eq_some_iff {b : Block} {j : Nat} :
    b.elseTarget = some j ↔ b.FalsePath j := by
  unfold elseTarget FalsePath
  cases b.instructions with
  | nil => simp
  | cons i rest =>
      by_cases branch : i.opcode = .branch
      · simp [branch]
      · simp [branch]

/-! ## Regions -/

/-- What a region says about itself. -/
structure RegionHead where
  /-- Its identity. -/
  key : Nat := 0
  /-- Its kind. -/
  kind : Text := lit "Region"
  /-- Its description. -/
  description : Text := []
  /-- Its attributes. -/
  attributes : List Text := []
deriving DecidableEq, Repr

/-- Regions over positions of blocks. -/
abbrev RegionForest := Forest RegionHead Nat

/-- A region with everything inside it. -/
structure Region where
  /-- What the region says about itself. -/
  head : RegionHead
  /-- The blocks and regions inside it, in order. -/
  body : RegionForest
deriving DecidableEq, Repr

/-- The forest of one region. -/
def Region.toForest (r : Region) : RegionForest := .node r.head r.body .nil

/-- The blocks of a region from left to right, with repetitions. -/
def Region.blocks (r : Region) : List Nat := r.body.leaves

/-- The positions of the blocks that some of the regions reach. -/
def coveredBlocks (rs : List Region) : List Nat := rs.flatMap Region.blocks

/-- An exception handler. -/
structure Handler where
  /-- The type of exception it catches. -/
  catchType : Text := lit "Throwable"
  /-- Its region, if it has one. -/
  region : Option Region := none
deriving DecidableEq, Repr

/-! ## Methods -/

/-- A decompiled method. -/
structure Method where
  /-- The full name of its class. -/
  className : Text
  /-- Its name with its signature. -/
  shortId : Text
  /-- Its return type. -/
  returnType : Text := lit "void"
  /-- The types of its arguments. -/
  arguments : List Text := []
  /-- Its access flags. -/
  flags : List Text := []
  /-- Its attributes. -/
  attributes : List Text := []
  /-- The table of blocks. -/
  blocks : List Block := []
  /-- The positions of the blocks of its code, in order. -/
  listed : List Nat := []
  /-- The root of its region tree, if its code was structured. -/
  region : Option Region := none
  /-- Its exception handlers. -/
  handlers : List Handler := []
  /-- Whether it has no code. -/
  noCode : Bool := false
  /-- The position of the block its code starts with, where that is stated. -/
  entry : Option Nat := none
deriving DecidableEq, Repr

namespace Method

/-- The block at a position. -/
def block (m : Method) (i : Nat) : Block := m.blocks.getD i .blank

/-- The number of the block at a position. -/
def blockId (m : Method) (i : Nat) : Int := (m.block i).id

/-- The name of the method: its short id up to the signature. -/
def name (m : Method) : Text := m.shortId.takeWhile (· ≠ '(')

/-- The name of the class, a point, and the short id. -/
def fullName (m : Method) : Text := m.className ++ '.' :: m.shortId

/-- The name of the class with a slash for every point. -/
def classPath (m : Method) : Text := Text.substitute '.' ['/'] m.className

/-- The block the code starts with: the stated one, or else the first. -/
def enterBlock (m : Method) : Option Nat := m.entry <|> m.listed.head?

/-- The access flags, each followed by a blank. -/
def access (m : Method) : Text := m.flags.flatMap (· ++ [' '])

/-- The regions of the handlers that have one. -/
def handlerRegions (m : Method) : List Region := m.handlers.filterMap Handler.region

/-- The root region and then the handlers' regions. -/
def regions (m : Method) : List Region := m.region.toList ++ m.handlerRegions

/-- The blocks of the code that no region reaches, in order and with repetitions. -/
def uncovered (m : Method) : List Nat :=
  let covered := coveredBlocks m.regions
  m.listed.filter fun i => i ∉ covered

end Method

end FlowGraph
