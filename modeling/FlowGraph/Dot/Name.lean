import FlowGraph.Text.Number

/-!
# Names in a graph

A block is named by its number, which is unique within a method read from a
listing.  A region is named by its kind and by a number that counts the regions of
the graph in the order in which they are first named.

`Numbering` holds the regions named so far.  Its `number` is the same before and
after the region is noted, so a region has one name all along.  `Numbering.name` names
a `Subject`, a block or a region.
-/

namespace FlowGraph.Dot

/-- The name of a block with this number. -/
def blockName (id : Int) : Text := lit "Node_" ++ Text.integer id

/-- The characters an identifier may have. -/
def isIdentifierChar (c : Char) : Bool := c.isAlphanum || c = '_'

/-- A text with an underscore for every character that an identifier may not have. -/
def identifier (t : Text) : Text := t.map fun c => if isIdentifierChar c then c else '_'

/-- The name of a cluster for a region of this kind and number. -/
def clusterName (kind : Text) (number : Nat) : Text :=
  lit "cluster_" ++ identifier kind ++ '_' :: Text.natural number

/-- The keys of the regions named so far, in order of first appearance. -/
structure Numbering where
  /-- The keys, pairwise different. -/
  seen : List Nat := []
deriving DecidableEq, Repr

namespace Numbering

/-- The number of a region: its place among those seen, or the next free number. -/
def number (n : Numbering) (key : Nat) : Nat := n.seen.idxOf key

/-- The numbering after a region has been named. -/
def note (n : Numbering) (key : Nat) : Numbering :=
  if key ∈ n.seen then n else ⟨n.seen ++ [key]⟩

theorem mem_note (n : Numbering) (key : Nat) : key ∈ (n.note key).seen := by
  unfold note
  split
  · assumption
  · simp

theorem number_note (n : Numbering) (key : Nat) : (n.note key).number key = n.number key := by
  unfold note number
  split
  · rfl
  · next h =>
      show List.idxOf key (n.seen ++ [key]) = List.idxOf key n.seen
      rw [List.idxOf_append, if_neg h, List.idxOf_eq_length h]
      simp

end Numbering

/-! ## Naming -/

/-- What a graph names. -/
inductive Subject where
  /-- The block of a number. -/
  | block (id : Int)
  /-- The region of a key and kind. -/
  | region (key : Nat) (kind : Text)
deriving DecidableEq, Repr

/-- The name of a subject, and the numbering after it is given. -/
def Numbering.name (n : Numbering) : Subject → Text × Numbering
  | .block id => (blockName id, n)
  | .region key kind => (clusterName kind (n.number key), n.note key)

end FlowGraph.Dot
