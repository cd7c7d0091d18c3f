/-!
# Forests

An ordered forest whose inner nodes carry labels and whose leaves carry values.
A node and a leaf are both followed by the rest of the forest at the same level,
so a forest is one inductive type and every traversal is a structural recursion.

The listing reader builds forests of region headers over block numbers, and a
method holds forests of regions over block positions.
-/

namespace FlowGraph

/-- An ordered forest with labels `ρ` on inner nodes and values `β` on leaves. -/
inductive Forest (ρ β : Type) where
  /-- No tree. -/
  | nil
  /-- A leaf, then the trees after it. -/
  | leaf (b : β) (rest : Forest ρ β)
  /-- A node with the trees below it, then the trees after it. -/
  | node (r : ρ) (body rest : Forest ρ β)
deriving DecidableEq, Repr

namespace Forest

variable {ρ ρ' β : Type}

instance : Inhabited (Forest ρ β) := ⟨nil⟩

/-- The trees of the first forest, then those of the second. -/
def append : Forest ρ β → Forest ρ β → Forest ρ β
  | nil, g => g
  | leaf b rest, g => leaf b (rest.append g)
  | node r body rest, g => node r body (rest.append g)

instance : Append (Forest ρ β) := ⟨append⟩

@[simp] theorem leaf_append (b : β) (f g : Forest ρ β) : leaf b f ++ g = leaf b (f ++ g) := rfl

@[simp] theorem node_append (r : ρ) (body f g : Forest ρ β) :
    node r body f ++ g = node r body (f ++ g) := rfl

@[simp] theorem append_nil : ∀ f : Forest ρ β, f ++ nil = f
  | nil => rfl
  | leaf b rest => by rw [leaf_append, append_nil rest]
  | node r body rest => by rw [node_append, append_nil rest]

theorem append_assoc : ∀ f g h : Forest ρ β, (f ++ g) ++ h = f ++ (g ++ h)
  | nil, _, _ => rfl
  | leaf b rest, g, h => by simp only [leaf_append, append_assoc rest g h]
  | node r body rest, g, h => by simp only [node_append, append_assoc rest g h]

/-! ## Leaves and labels -/

/-- The values of the leaves from left to right, with repetitions. -/
def leaves : Forest ρ β → List β
  | nil => []
  | leaf b rest => b :: rest.leaves
  | node _ body rest => body.leaves ++ rest.leaves

/-- The labels of the nodes, each before those below it. -/
def labels : Forest ρ β → List ρ
  | nil => []
  | leaf _ rest => rest.labels
  | node r body rest => r :: (body.labels ++ rest.labels)

@[simp] theorem leaves_append : ∀ f g : Forest ρ β, (f ++ g).leaves = f.leaves ++ g.leaves
  | nil, _ => rfl
  | leaf b rest, g => by simp [leaves, leaves_append rest g]
  | node r body rest, g => by simp [leaves, leaves_append rest g]

/-! ## Numbering the nodes -/

/-- The forest with its labels rebuilt from their numbers: the nodes are numbered from
`n` on, each before those below it. -/
def numberFrom (f : Nat → ρ → ρ') : Nat → Forest ρ β → Forest ρ' β
  | _, nil => nil
  | n, leaf b rest => leaf b (numberFrom f n rest)
  | n, node r body rest =>
      node (f n r) (numberFrom f (n + 1) body)
        (numberFrom f (n + 1 + body.labels.length) rest)

@[simp] theorem leaves_numberFrom (f : Nat → ρ → ρ') :
    ∀ (n : Nat) (g : Forest ρ β), (numberFrom f n g).leaves = g.leaves
  | _, nil => rfl
  | n, leaf b rest => by simp [numberFrom, leaves, leaves_numberFrom f n rest]
  | n, node r body rest => by simp [numberFrom, leaves, leaves_numberFrom f]

end Forest

end FlowGraph
