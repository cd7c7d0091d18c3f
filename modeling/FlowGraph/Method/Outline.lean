import FlowGraph.Method.Basic
import FlowGraph.Text.Basic
import FlowGraph.Text.Quoted

/-!
# Outlines

The outline of a method is a plain text with one fact to a line: the entry block,
the attributes, each block with its successors and instructions, the region tree
and the handlers.  Depth is shown by two blanks a level.
-/

namespace FlowGraph

/-- A text behind two blanks for each level. -/
def indented (level : Nat) (t : Text) : Text := List.replicate (2 * level) ' ' ++ t

/-- The numbers of the blocks at some positions, between brackets. -/
def Method.idList (m : Method) (is : List Nat) : Text :=
  Text.list (is.map fun i => Text.integer (m.blockId i))

/-- A line for the attributes, if there are any. -/
def attributeOutline (level : Nat) (as : List Text) : List Text :=
  if as.isEmpty then []
  else [indented level (lit "attributes: " ++ Text.list (as.map Text.quoted))]

/-- The line of an instruction. -/
def Instruction.outline (i : Instruction) : Text :=
  indented 3 (i.opcode.name.map Char.toLower ++ ' ' :: i.text)

/-- The lines of the block at a position. -/
def Method.blockOutline (m : Method) (i : Nat) : List Text :=
  let b := m.block i
  [indented 1 (lit "block " ++ Text.integer b.id ++ lit " @ " ++ Text.offset b.offset ++ lit ":"),
   indented 2 (lit "successors: " ++ m.idList b.successors)]
  ++ (match b.elseTarget with
      | some j => [indented 2 (lit "else: " ++ Text.integer (m.blockId j))]
      | none => [])
  ++ attributeOutline 2 b.attributes
  ++ indented 2 (lit "instructions:") :: b.instructions.map Instruction.outline

/-- The lines of a forest of regions. -/
def Method.forestOutline (m : Method) : Nat → RegionForest → List Text
  | _, .nil => []
  | level, .leaf i rest =>
      indented level (lit "block " ++ Text.integer (m.blockId i)) :: m.forestOutline level rest
  | level, .node r body rest =>
      indented level (r.kind ++ lit ": " ++ r.description)
        :: (m.forestOutline (level + 1) body ++ m.forestOutline level rest)

/-- The lines of a region, if there is one. -/
def Method.regionOutline (m : Method) : Option Region → List Text
  | some r => m.forestOutline 2 r.toForest
  | none => []

/-- The lines of a handler. -/
def Method.handlerOutline (m : Method) (h : Handler) : List Text :=
  indented 1 (lit "handler " ++ h.catchType ++ lit ":") :: m.regionOutline h.region

/-- The lines of a method that has code. -/
def Method.outlineLines (m : Method) : List Text :=
  let entry := match m.enterBlock with
    | some i => Text.integer (m.blockId i)
    | none => lit "-"
  [m.fullName ++ lit ":", indented 1 (lit "entry: " ++ entry)]
  ++ attributeOutline 1 m.attributes
  ++ m.listed.flatMap m.blockOutline
  ++ (if m.region.isSome then [indented 1 (lit "regions:")] else [])
  ++ m.regionOutline m.region
  ++ m.handlers.flatMap m.handlerOutline

/-- The outline of a method, without blanks at its ends unless there is no code. -/
def Method.outline (m : Method) : Text :=
  if m.noCode then m.fullName ++ lit ":\n  no code"
  else Text.trim (List.intercalate ['\n'] m.outlineLines)

end FlowGraph
