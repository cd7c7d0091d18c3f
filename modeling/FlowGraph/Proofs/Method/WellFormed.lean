import FlowGraph.Proofs.Method.Keys

/-!
# Well-formed methods

`Method.Linked` says what a method read from a listing has to offer: its blocks are told
apart by their numbers, every reference stays within its own table, else targets are
successors, and no region stands at two places.  `Method.WellFormed` adds what follows for
the false paths and for the block that the code starts with.
-/

namespace FlowGraph

/-- Whether an else target stands only where it may, and is one of these blocks. -/
def Instruction.ElseAmong (successors : List Nat) (i : Instruction) : Prop :=
  ∀ e ∈ i.elseTarget, i.opcode = .branch ∧ e ∈ successors

/-- Whether a block refers only to positions below a bound, and to else targets only among
its successors. -/
structure Block.Refers (bound : Nat) (b : Block) : Prop where
  /-- The successors are in the table. -/
  successors : ∀ d ∈ b.successors, d < bound
  /-- The else targets are successors. -/
  instructions : ∀ i ∈ b.instructions, i.ElseAmong b.successors

instance (successors : List Nat) (i : Instruction) : Decidable (i.ElseAmong successors) := by
  unfold Instruction.ElseAmong
  infer_instance

instance (bound : Nat) (b : Block) : Decidable (b.Refers bound) :=
  decidable_of_iff
    ((∀ d ∈ b.successors, d < bound) ∧ ∀ i ∈ b.instructions, i.ElseAmong b.successors)
    ⟨fun ⟨successors, instructions⟩ => ⟨successors, instructions⟩,
      fun h => ⟨h.successors, h.instructions⟩⟩

/-- Whether the references of a method fit its table. -/
structure Method.Linked (m : Method) : Prop where
  /-- No number of a block is negative. -/
  id_nonneg : ∀ b ∈ m.blocks, 0 ≤ b.id
  /-- Different blocks have different numbers. -/
  ids_nodup : (m.blocks.map Block.id).Nodup
  /-- The blocks of the code are those of the table, in order. -/
  listed_eq : m.listed = List.range m.blocks.length
  /-- The blocks refer to blocks of the method. -/
  blocks_refer : ∀ b ∈ m.blocks, b.Refers m.blocks.length
  /-- The code starts with a block of the method, where that is stated. -/
  entry_lt : ∀ i ∈ m.entry, i < m.blocks.length
  /-- The regions hold blocks of the method. -/
  regions_lt : ∀ r ∈ m.regions, ∀ i ∈ r.blocks, i < m.blocks.length
  /-- No region stands at two places. -/
  keys_nodup : m.keys.Nodup

instance (m : Method) : Decidable m.Linked :=
  decidable_of_iff ((∀ b ∈ m.blocks, 0 ≤ b.id) ∧ (m.blocks.map Block.id).Nodup
      ∧ m.listed = List.range m.blocks.length ∧ (∀ b ∈ m.blocks, b.Refers m.blocks.length)
      ∧ (∀ i ∈ m.entry, i < m.blocks.length)
      ∧ (∀ r ∈ m.regions, ∀ i ∈ r.blocks, i < m.blocks.length) ∧ m.keys.Nodup)
    ⟨fun ⟨nonneg, ids, listed, blocks, entry, regions, keys⟩ =>
        ⟨nonneg, ids, listed, blocks, entry, regions, keys⟩,
      fun h => ⟨h.id_nonneg, h.ids_nodup, h.listed_eq, h.blocks_refer, h.entry_lt, h.regions_lt,
        h.keys_nodup⟩⟩

/-- What holds of a method whose references fit. -/
structure Method.WellFormed (m : Method) : Prop extends m.Linked where
  /-- The false path of a block is one of its successors. -/
  elseTarget_mem : ∀ b ∈ m.blocks, ∀ e ∈ b.elseTarget, e ∈ b.successors
  /-- The code starts nowhere only if there is none. -/
  enterBlock_eq_none : m.enterBlock = none ↔ m.blocks = []

/-- The false path of a block is one of its else targets. -/
theorem Block.Refers.elseTarget_mem {bound : Nat} {b : Block} (h : b.Refers bound) :
    ∀ e ∈ b.elseTarget, e ∈ b.successors := by
  intro e he
  unfold elseTarget at he
  split at he
  · next i is first =>
      split at he
      · have hi : i ∈ b.instructions := first ▸ List.mem_cons_self
        exact (h.instructions i hi e he).2
      · cases he
  · cases he

namespace Method.Linked

variable {m : Method}

/-- The code starts with a block of the table, unless there is none. -/
theorem enterBlock_eq_none (h : m.Linked) : m.enterBlock = none ↔ m.blocks = [] := by
  unfold enterBlock
  cases stated : m.entry with
  | some i =>
      have lt := h.entry_lt i stated
      constructor
      · intro eq
        cases eq
      · intro empty
        rw [empty] at lt
        exact absurd lt (Nat.not_lt_zero i)
  | none =>
      show m.listed.head? = none ↔ _
      rw [h.listed_eq, List.head?_eq_none_iff, List.range_eq_nil, List.length_eq_zero_iff]

/-- The code starts with a block of the table. -/
theorem enterBlock_lt (h : m.Linked) {i : Nat} (hi : m.enterBlock = some i) :
    i < m.blocks.length := by
  unfold enterBlock at hi
  cases stated : m.entry with
  | some j =>
      rw [stated] at hi
      cases hi
      exact h.entry_lt i stated
  | none =>
      rw [stated] at hi
      have mem : i ∈ m.listed := List.mem_of_head? hi
      rwa [h.listed_eq, List.mem_range] at mem

/-- The successors of a block are blocks of the table. -/
theorem successor_lt (h : m.Linked) {i j : Nat} (hj : j ∈ (m.block i).successors) :
    j < m.blocks.length := by
  unfold block at hj
  rw [List.getD_eq_getElem?_getD] at hj
  cases hi : m.blocks[i]? with
  | none =>
      rw [hi] at hj
      cases hj
  | some b =>
      rw [hi] at hj
      exact (h.blocks_refer b (List.mem_of_getElem? hi)).successors j hj

theorem wellFormed (h : m.Linked) : m.WellFormed where
  toLinked := h
  elseTarget_mem := fun b hb => (h.blocks_refer b hb).elseTarget_mem
  enterBlock_eq_none := h.enterBlock_eq_none

end Method.Linked

end FlowGraph
