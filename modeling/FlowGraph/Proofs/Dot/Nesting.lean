import FlowGraph.Proofs.Dot.Drawing

/-!
# Nesting of clusters

A line opens a cluster, closes one, or does neither.  `enclosing` counts the clusters
around each line of a graph from these brackets alone, without regard to how the line is
indented.  The count is an integer, so a line that closes a cluster which was never opened
shows in every line after it.

`enclosing_forestLines` says that the lines of a forest are indented by the clusters around
them, and that the forest closes what it opens.  It carries over to the lines of a whole
drawing (`enclosing_drawnLines`).
-/

namespace FlowGraph.Dot

/-- What a line does to the clusters that are open. -/
inductive Bracket where
  | opening
  | closing
  | neutral
deriving DecidableEq, Repr

/-- The number of clusters around each line, with so many around the first.  The lines that
open and close a cluster stand outside it. -/
def enclosing : Int → List Bracket → List Int
  | _, [] => []
  | n, .opening :: bs => n :: enclosing (n + 1) bs
  | n, .closing :: bs => (n - 1) :: enclosing (n - 1) bs
  | n, .neutral :: bs => n :: enclosing n bs

/-- What a statement does to the clusters that are open. -/
def NodeStatement.bracket : NodeStatement → Bracket
  | openCluster .. => .opening
  | closeCluster => .closing
  | clusterLabel _ | clusterStyle | block .. => .neutral

/-- The number of clusters that the indentation of a line stands for. -/
def NodeLine.level (l : NodeLine) : Int := l.depth - topDepth

theorem enclosing_of_neutral (n : Int) : ∀ (bs rest : List Bracket),
    (∀ b ∈ bs, b = .neutral) →
      enclosing n (bs ++ rest) = List.replicate bs.length n ++ enclosing n rest
  | [], _, _ => rfl
  | b :: bs, rest, h => by
      rw [h b List.mem_cons_self]
      have later := enclosing_of_neutral n bs rest fun b hb => h b (List.mem_cons_of_mem _ hb)
      exact congrArg (n :: ·) later

section

variable (s : InstructionStyle) (m : Method)

/-- The lines of a forest stand at the levels of the clusters around them, whatever comes
after.  The induction is on the forest.  A node leaves the count as it found it, since its
last line closes what its first one opened. -/
theorem enclosing_forestLines (f : RegionForest) (depth : Nat) (n : Numbering)
    (rest : List Bracket) :
    enclosing (depth - topDepth)
        ((forestLines s m depth n f).map (·.statement.bracket) ++ rest)
      = (forestLines s m depth n f).map NodeLine.level ++ enclosing (depth - topDepth) rest := by
  induction f generalizing depth n rest with
  | nil => rfl
  | leaf i later ih => exact congrArg (_ :: ·) (ih depth n rest)
  | node r body later ihBody ihLater =>
      let inner := forestLines s m (depth + 1) (n.note r.key) body
      let outer := forestLines s m depth ((n.note r.key).noteForest body) later
      have deeper : ((depth + 1 : Nat) : Int) - topDepth = depth - topDepth + 1 := by omega
      have step := ihBody (depth + 1) (n.note r.key)
        (.closing :: (outer.map (·.statement.bracket) ++ rest))
      rw [deeper, enclosing, Int.add_sub_cancel, ihLater] at step
      simp only [forestLines, openingLines, List.map_append, List.append_assoc]
      show (depth - topDepth : Int) :: (depth - topDepth + 1) :: (depth - topDepth + 1)
        :: enclosing (depth - topDepth + 1) (inner.map (·.statement.bracket)
          ++ .closing :: (outer.map (·.statement.bracket) ++ rest)) = _
      rw [step]
      simp only [List.map_cons, List.map_nil, List.cons_append, List.nil_append, NodeLine.level,
        deeper]

theorem enclosing_drawnLines (v : View) (rest : List Bracket) :
    enclosing 0 ((drawnLines v s m).map (·.statement.bracket) ++ rest)
      = (drawnLines v s m).map NodeLine.level ++ enclosing 0 rest := by
  have blocks : ∀ (red : Bool) (is : List Nat),
      enclosing 0 ((is.map (blockLine s m topDepth red)).map (·.statement.bracket) ++ rest)
        = (is.map (blockLine s m topDepth red)).map NodeLine.level ++ enclosing 0 rest := by
    intro red is
    rw [enclosing_of_neutral]
    · simp [blockLine, NodeLine.level, Function.comp_def, List.map_const']
    · simp [blockLine, NodeStatement.bracket]
  unfold drawnLines
  split
  · have forest := enclosing_forestLines s m (Region.grove m.regions) topDepth {}
    rw [Int.sub_self] at forest
    rw [List.map_append, List.append_assoc, forest, blocks true, List.map_append,
      List.append_assoc]
  · exact blocks false m.listed

end

end FlowGraph.Dot
