import Mathlib.Data.List.GetD
import Mathlib.Data.List.Nodup
import FlowGraph.Proofs.Dot.Agreement
import FlowGraph.Proofs.Dot.Heading

/-!
# The graph of a flat document

The flat document of a method pictures its control flow.  `FlatPicture` says of the
statements read in a document that they are a node for each block, the node of the method,
the entry edge and an edge for each arrow, in order, and nothing else.

An arrow runs from a block to one of its successors.  Blocks of a loaded method have
different names in the graph, so the edges that leave the node of a block are those of its
own arrows (`edges_leaving`).  A dotted one among them runs to the false path
(`dottedFrom_arrows`), which a loaded block has among its successors.
-/

namespace FlowGraph

/-! ## Arrows -/

namespace Method

/-- The pairs of a block and one of its successors, in order. -/
def arrows (m : Method) : List (Block × Nat) :=
  m.blocks.flatMap fun b => b.successors.map (b, ·)

variable {m : Method}

theorem getElem?_blocks {i : Nat} (h : i < m.blocks.length) : m.blocks[i]? = some (m.block i) := by
  rw [block, List.getD_eq_getElem _ _ h, List.getElem?_eq_getElem h]

namespace Linked

/-- The blocks of the code are those of the table, in order. -/
theorem map_block_listed (h : m.Linked) : m.listed.map m.block = m.blocks := by
  rw [h.listed_eq]
  refine List.ext_getElem (by simp) fun i _ lt => ?_
  rw [List.getElem_map, List.getElem_range, block, List.getD_eq_getElem _ _ lt]

/-- The code starts with the stated block or else with the first. -/
theorem eq_getD_of_enterBlock (h : m.Linked) {i : Nat} (hi : m.enterBlock = some i) :
    i = m.entry.getD 0 := by
  unfold enterBlock at hi
  cases stated : m.entry with
  | some j =>
      rw [stated] at hi
      exact (Option.some.inj hi).symm
  | none =>
      rw [stated] at hi
      have first : (List.range m.blocks.length).head? = some i := h.listed_eq ▸ hi
      rw [List.head?_range] at first
      split at first
      · cases first
      · exact (Option.some.inj first).symm

end Linked

end Method

namespace Dot

open Reading

/-! ## Names -/

theorem blockName_injective {y z : Int} (h : blockName y = blockName z) : y = z :=
  integer_injective (List.append_cancel_left h)

theorem blockName_ne_methodName (id : Int) : blockName id ≠ methodName := by
  intro same
  cases same

/-! ## Edges of a block -/

/-- The edge of an arrow. -/
def arrowEdge (m : Method) (a : Block × Nat) : Reading.Edge :=
  ⟨blockName a.1.id, blockName (m.blockId a.2), a.1.elseTarget = some a.2⟩

/-- The dotted edges that leave the node of a block. -/
def dottedFrom (es : List Reading.Edge) (b : Block) : List Reading.Edge :=
  es.filter fun e => e.source = blockName b.id && e.dotted

section

variable {m : Method} (h : m.Linked)

include h

/-- The edges of the blocks are those of the arrows. -/
theorem map_reading_blockEdges :
    (m.listed.flatMap (blockEdges m)).map Edge.reading = m.arrows.map (arrowEdge m) := by
  have block : ∀ i, (blockEdges m i).map Edge.reading
      = ((m.block i).successors.map (m.block i, ·)).map (arrowEdge m) := by
    intro i
    rw [blockEdges, List.map_map, List.map_map]
    rfl
  rw [Method.arrows, ← h.map_block_listed, List.map_flatMap, List.map_flatMap, List.flatMap_map]
  exact List.flatMap_congr fun i _ => block i

/-- The edges that leave the node of a block are those of its own arrows, since no other block
has its name. -/
theorem edges_leaving {b : Block} (hb : b ∈ m.blocks) :
    (m.arrows.map (arrowEdge m)).filter (fun e => e.source = blockName b.id)
      = (b.successors.map (b, ·)).map (arrowEdge m) := by
  obtain ⟨before, after, table⟩ := List.append_of_mem hb
  -- The table has the block once, so the blocks before and after it have other numbers.
  have ids := h.ids_nodup
  rw [table, List.map_append, List.map_cons, List.nodup_middle, List.nodup_cons,
    ← List.map_append] at ids
  have own : ((b.successors.map (b, ·)).map (arrowEdge m)).filter
      (fun e => e.source = blockName b.id) = (b.successors.map (b, ·)).map (arrowEdge m) := by
    simp [List.filter_eq_self, arrowEdge]
  have other : ∀ c ∈ before ++ after, ((c.successors.map (c, ·)).map (arrowEdge m)).filter
      (fun e => e.source = blockName b.id) = [] := by
    intro c hc
    have apart : blockName c.id ≠ blockName b.id := fun same =>
      ids.1 (blockName_injective same ▸ List.mem_map_of_mem hc)
    simp [List.filter_eq_nil_iff, arrowEdge, apart]
  have none : ∀ cs : List Block, (∀ c ∈ cs, c ∈ before ++ after) →
      cs.flatMap (fun c => ((c.successors.map (c, ·)).map (arrowEdge m)).filter
        (fun e => e.source = blockName b.id)) = [] :=
    fun cs sub => List.flatMap_eq_nil_iff.2 fun c hc => other c (sub c hc)
  rw [Method.arrows, table, List.map_flatMap, List.filter_flatMap, List.flatMap_append,
    List.flatMap_cons, own, none before fun _ => List.mem_append_left _,
    none after fun _ => List.mem_append_right _, List.nil_append, List.append_nil]

/-- The dotted edges of a block run to its false path. -/
theorem dottedFrom_arrows {b : Block} (hb : b ∈ m.blocks) :
    dottedFrom (m.arrows.map (arrowEdge m)) b
      = ((b.successors.filter (b.elseTarget = some ·)).map (b, ·)).map (arrowEdge m) := by
  have split : dottedFrom (m.arrows.map (arrowEdge m)) b
      = ((m.arrows.map (arrowEdge m)).filter (fun e => e.source = blockName b.id)).filter
        Reading.Edge.dotted := by
    rw [List.filter_filter]
    exact List.filter_congr fun e _ => Bool.and_comm ..
  rw [split, edges_leaving h hb, List.filter_map, List.filter_map]
  rfl

/-- Where the successors of a block are distinct, one edge is dotted if there is a false path. -/
theorem length_dottedFrom {b : Block} (hb : b ∈ m.blocks) (distinct : b.successors.Nodup) {j : Nat}
    (target : b.FalsePath j) : (dottedFrom (m.arrows.map (arrowEdge m)) b).length = 1 := by
  have target := Block.elseTarget_eq_some_iff.2 target
  have mem : j ∈ b.successors := (h.blocks_refer b hb).elseTarget_mem j target
  have same : b.successors.filter (b.elseTarget = some ·) = b.successors.filter (· == j) := by
    refine List.filter_congr fun k _ => ?_
    rw [target]
    exact decide_eq_decide.2 ⟨fun eq => (Option.some.inj eq).symm, fun eq => congrArg some eq.symm⟩
  rw [dottedFrom_arrows h hb, List.length_map, List.length_map, same,
    ← List.countP_eq_length_filter]
  exact List.count_eq_one_of_mem distinct mem

theorem dottedFrom_eq_nil {b : Block} (hb : b ∈ m.blocks) (none : ∀ j, ¬ b.FalsePath j) :
    dottedFrom (m.arrows.map (arrowEdge m)) b = [] := by
  have solid : b.successors.filter (b.elseTarget = some ·) = [] := by
    refine List.filter_eq_nil_iff.2 fun j _ target => ?_
    exact none j (Block.elseTarget_eq_some_iff.1 (of_decide_eq_true target))
  rw [dottedFrom_arrows h hb, solid]
  rfl

end

/-! ## Pictures -/

/-- Whether the statements of a document are a picture of the method without regions: these
nodes, one for each block, the node of the method, this entry edge, if there is any block, and
these edges, one for each arrow. -/
structure FlatPicture (m : Method) (g : Reading) (nodes : List Reading.Node)
    (entries edges : List Reading.Edge) : Prop where
  /-- The document has these statements and no others. -/
  statements : g.statements
    = nodes.map .node ++ [.node (methodNode m)] ++ (entries ++ edges).map .edge
  /-- A node has the name of its block, and its label tells the number and the offset. -/
  blocks : List.Forall₂ (fun b n => n.name = blockName b.id ∧
    heading? n.label = some (b.id, b.offset)) m.blocks nodes
  /-- Different nodes have different names. -/
  names_nodup : (methodName :: nodes.map Node.name).Nodup
  /-- An edge runs from its block to the successor, and it is dotted on the false path. -/
  arrows : List.Forall₂ (fun a e => e.source = blockName a.1.id ∧
    (∃ b, m.blocks[a.2]? = some b ∧ e.target = blockName b.id) ∧
    (e.dotted = true ↔ a.1.FalsePath a.2)) m.arrows edges
  /-- Where the successors of a block are distinct, one edge of it is dotted if it has a false
  path. -/
  one_dotted : ∀ b ∈ m.blocks, b.successors.Nodup → (∃ j, b.FalsePath j) →
    (dottedFrom edges b).length = 1
  /-- No edge of a block without a false path is dotted. -/
  none_dotted : ∀ b ∈ m.blocks, (∀ j, ¬ b.FalsePath j) → dottedFrom edges b = []
  /-- One statement declares the node of the method. -/
  method : g.nodes.filter (·.name = methodName) = [methodNode m]
  /-- The entry edge runs to the stated block or else to the first. -/
  entry : (m.blocks = [] ∧ entries = []) ∨
    ∃ b, m.blocks[m.entry.getD 0]? = some b ∧ entries = [⟨methodName, blockName b.id, false⟩]
  /-- No other edge leaves the node of the method. -/
  leaving_method : g.edges.filter (·.source = methodName) = entries

section

variable {m : Method} (h : m.Linked) (s : InstructionStyle) (raw : Bool) (title : Text)

/-- The node of a block in a flat document. -/
def flatNode (s : InstructionStyle) (b : Block) : Reading.Node :=
  ⟨blockName b.id, false, blockLabel s b⟩

include h

theorem nodes_flat : (Reading.mk title (documentRows { raw := raw } s m)).nodes
    = m.blocks.map (flatNode s) ++ [methodNode m] := by
  rw [nodes_documentRows, ← h.map_block_listed, List.map_map]
  rfl

theorem edges_flat : (Reading.mk title (documentRows { raw := raw } s m)).edges
    = m.enterBlock.toList.map (entryEdge m) ++ m.arrows.map (arrowEdge m) := by
  rw [edges_documentRows, drawnEdges, ← map_reading_blockEdges h]
  rfl

theorem nodup_flatNames : (methodName :: (m.blocks.map (flatNode s)).map Node.name).Nodup := by
  have names : (m.blocks.map (flatNode s)).map Node.name = (m.blocks.map Block.id).map blockName := by
    rw [List.map_map, List.map_map]
    rfl
  rw [names, List.nodup_cons]
  constructor
  · intro mem
    obtain ⟨id, -, same⟩ := List.mem_map.1 mem
    exact blockName_ne_methodName id same
  · exact h.ids_nodup.map fun _ _ => blockName_injective

theorem statements_flat : (Reading.mk title (documentRows { raw := raw } s m)).statements
    = (m.blocks.map (flatNode s)).map .node ++ [.node (methodNode m)]
      ++ (m.enterBlock.toList.map (entryEdge m) ++ m.arrows.map (arrowEdge m)).map .edge := by
  have nodes : (drawnLines { raw := raw } s m).map (·.statement.reading)
      = (m.blocks.map (flatNode s)).map .node := by
    rw [← h.map_block_listed, List.map_map, List.map_map]
    exact List.map_map
  rw [statements_documentRows, nodes, ← edges_flat h s raw title, edges_documentRows]

theorem arrowEdge_faithful {a : Block × Nat} (ha : a ∈ m.arrows) :
    (arrowEdge m a).source = blockName a.1.id ∧
      (∃ b, m.blocks[a.2]? = some b ∧ (arrowEdge m a).target = blockName b.id) ∧
      ((arrowEdge m a).dotted = true ↔ a.1.FalsePath a.2) := by
  obtain ⟨b, hb, mem⟩ := List.mem_flatMap.1 ha
  obtain ⟨j, hj, rfl⟩ := List.mem_map.1 mem
  have lt : j < m.blocks.length := (h.blocks_refer b hb).successors j hj
  exact ⟨rfl, ⟨m.block j, Method.getElem?_blocks lt, rfl⟩,
    decide_eq_true_iff.trans Block.elseTarget_eq_some_iff⟩

theorem entryEdge_faithful : (m.blocks = [] ∧ m.enterBlock.toList.map (entryEdge m) = []) ∨
    ∃ b, m.blocks[m.entry.getD 0]? = some b ∧
      m.enterBlock.toList.map (entryEdge m) = [⟨methodName, blockName b.id, false⟩] := by
  cases enter : m.enterBlock with
  | none => exact .inl ⟨h.enterBlock_eq_none.1 enter, rfl⟩
  | some i =>
      have lt := h.enterBlock_lt enter
      rw [← h.eq_getD_of_enterBlock enter]
      exact .inr ⟨m.block i, Method.getElem?_blocks lt, rfl⟩

/-- The flat document of a method whose references fit is a picture of it. -/
theorem flatPicture_documentRows :
    FlatPicture m ⟨title, documentRows { raw := raw } s m⟩ (m.blocks.map (flatNode s))
      (m.enterBlock.toList.map (entryEdge m)) (m.arrows.map (arrowEdge m)) where
  statements := statements_flat h s raw title
  blocks := by
    rw [List.forall₂_map_right_iff, List.forall₂_same]
    exact fun b _ => ⟨rfl, heading?_blockLabel s b⟩
  names_nodup := nodup_flatNames h s
  arrows := by
    rw [List.forall₂_map_right_iff, List.forall₂_same]
    exact fun _ ha => arrowEdge_faithful h ha
  one_dotted := fun _ hb distinct ⟨_, target⟩ => length_dottedFrom h hb distinct target
  none_dotted := fun _ hb none => dottedFrom_eq_nil h hb none
  method := by
    have none : (m.blocks.map (flatNode s)).filter (·.name = methodName) = [] := by
      simp [flatNode, blockName_ne_methodName]
    rw [nodes_flat h, List.filter_append, none]
    rfl
  entry := entryEdge_faithful h
  leaving_method := by
    have all : (m.enterBlock.toList.map (entryEdge m)).filter (·.source = methodName)
        = m.enterBlock.toList.map (entryEdge m) := by
      simp [entryEdge]
    have none : (m.arrows.map (arrowEdge m)).filter (·.source = methodName) = [] := by
      refine List.filter_eq_nil_iff.2 fun e he fromMethod => ?_
      obtain ⟨a, -, rfl⟩ := List.mem_map.1 he
      exact blockName_ne_methodName a.1.id (of_decide_eq_true fromMethod)
    rw [edges_flat h, List.filter_append, all, none, List.append_nil]

end

/-! ## Loaded methods -/

/-- The flat document of a parsed method with code is a picture of it. -/
theorem render_flatPicture {text : Text} {ms : List Method} (h : Listing.parse text = .ok ms)
    {m : Method} (hm : m ∈ ms) (code : m.noCode = false) (raw : Bool) (printer : Printer) :
    ∃ t g nodes entries edges, render { raw := raw } printer m = some t ∧ ofText? t = some g ∧
      FlatPicture m g nodes entries edges := by
  have linked := Listing.linked_of_parse h hm
  exact ⟨_, _, _, _, _, render_eq_some code (fun structured => by cases structured),
    ofText?_document _ printer linked.id_nonneg, flatPicture_documentRows linked _ _ _⟩

theorem decoyMethod_flatPicture :
    Listing.parse decoyListing = .ok [decoyMethod] ∧ decoyMethod.noCode = false ∧
      ∃ t g nodes entries edges, render {} plainPrinter decoyMethod = some t ∧
        ofText? t = some g ∧ FlatPicture decoyMethod g nodes entries edges :=
  ⟨parse_decoyListing, rfl,
    render_flatPicture parse_decoyListing List.mem_cons_self rfl false plainPrinter⟩

end Dot

end FlowGraph
