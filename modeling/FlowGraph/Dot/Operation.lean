import FlowGraph.Dot.Drawing

/-!
# Operations on a drawing

A drawing can be made by single operations in any order.  Each adds at the end of what
has been drawn, and an operation that cannot be done leaves the drawing as it is
(`after_of_error`).
-/

namespace FlowGraph.Dot

/-- An operation on a drawing of a method. -/
inductive Operation where
  /-- Draws the block at a position, outlined in red or not. -/
  | block (i : Nat) (red : Bool)
  /-- Draws a region. -/
  | region (r : Region)
  /-- Draws the blocks of the code one by one. -/
  | blocks
  /-- Draws the method by its regions. -/
  | regions
  /-- Names a subject. -/
  | name (t : Subject)
deriving DecidableEq, Repr

namespace Drawing

/-- The drawing after an operation, unless the operation cannot be done. -/
def perform (s : InstructionStyle) (m : Method) (d : Drawing) :
    Operation → Except NoRegionTree Drawing
  | .block i red => .ok (d.addBlock s m topDepth red i)
  | .region r => .ok (d.addRegion s m r)
  | .blocks => .ok (d.addBlocks s m)
  | .regions => d.addRegions? s m
  | .name t => .ok { d with numbering := (d.numbering.name t).2 }

/-- The drawing after an attempt at an operation. -/
def after (s : InstructionStyle) (m : Method) (d : Drawing) (o : Operation) : Drawing :=
  match d.perform s m o with
  | .ok d' => d'
  | .error _ => d

theorem after_of_error {s : InstructionStyle} {m : Method} {d : Drawing} {o : Operation}
    {e : NoRegionTree} (h : d.perform s m o = .error e) : d.after s m o = d := by
  rw [after, h]

end Drawing

end FlowGraph.Dot
