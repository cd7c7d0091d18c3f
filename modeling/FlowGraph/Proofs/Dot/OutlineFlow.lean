import FlowGraph.Proofs.Dot.FlatGraph
import FlowGraph.Proofs.Method.Sections

/-!
# The outline and the flat document

The outline of a method and its flat document show one control flow.  They decide in different
ways what the false path of a block is: the outline has a line for it if there is one, and the
document dots the edges to it.  The two agree since the false path of a loaded block is among
its successors, and since no two blocks of a loaded method have one number.

`OutlineAgrees` compares what is read in both: the sections of the outline, one for each block,
and the nodes and edges of the document.
-/

namespace FlowGraph

theorem Method.Linked.block_mem {m : Method} (h : m.Linked) {i : Nat} (hi : i ∈ m.listed) :
    m.block i ∈ m.blocks := h.map_block_listed ▸ List.mem_map_of_mem hi

/-- Blocks of one number are at one position. -/
theorem Method.Linked.eq_of_blockId_eq {m : Method} (h : m.Linked) {i j : Nat}
    (hi : i < m.blocks.length) (hj : j < m.blocks.length) (same : m.blockId i = m.blockId j) :
    i = j := by
  have length : (m.blocks.map Block.id).length = m.blocks.length := List.length_map _
  have id : ∀ {k}, (lt : k < (m.blocks.map Block.id).length) →
      m.blockId k = (m.blocks.map Block.id)[k] := by
    intro k lt
    rw [List.getElem_map, blockId, block, List.getD_eq_getElem _ _ (length ▸ lt)]
  rw [id (length ▸ hi), id (length ▸ hj)] at same
  exact h.ids_nodup.getElem_inj_iff.1 same

namespace Dot

open Reading

/-! ## What the two have to say -/

/-- Whether the section of a block in an outline says what its node and its edges in a document
do. -/
structure BlockAgrees (s : OutlineSection) (n : Reading.Node) (es : List Reading.Edge) : Prop where
  /-- The heading has the number of the node and the offset in its label, written alike. -/
  heading : ∃ id offset rest,
    s.heading = lit "  block " ++ Text.integer id ++ lit " @ " ++ Text.offset offset ++ lit ":" ∧
    n.name = blockName id ∧
    n.label = Text.integer id ++ lit "\\:\\ " ++ Text.offset offset ++ rest ∧
    ∀ c ∈ rest.head?, c = '|'
  /-- The successors are the targets of the edges, in order. -/
  successors : ∃ ids : List Int,
    s.body.head? = some (lit "    successors: "
      ++ '[' :: List.intercalate (lit ", ") (ids.map Text.integer) ++ [']']) ∧
    es.map Reading.Edge.target = ids.map blockName
  /-- There is a line for an else target exactly if an edge is dotted. -/
  else_iff : (∃ k, elseLine k ∈ s.body) ↔ ∃ e ∈ es, e.dotted = true
  /-- The dotted edges are those to the else target. -/
  dotted_iff : ∀ k, elseLine k ∈ s.body → ∀ e ∈ es, e.dotted = true ↔ e.target = blockName k

/-- Whether the outline of a method says what its flat document does. -/
structure OutlineAgrees (m : Method) (g : Reading) : Prop where
  /-- The second line names the block that the edge from the node of the method runs to, if
  there is such an edge. -/
  entry : ∃ entry : Option Int, m.outlineLines[1]? = some (lit "  entry: " ++ entryText entry) ∧
    (g.edges.filter (·.source = methodName)).map Reading.Edge.target = entry.toList.map blockName
  /-- The other nodes are those of the blocks, in order. -/
  nodes : (g.nodes.filter (·.name ≠ methodName)).map Node.name
    = m.blocks.map fun b => blockName b.id
  /-- The sections of blocks agree with these nodes and with the edges from them, in order. -/
  blocks : List.Forall₂ (fun s n => BlockAgrees s n (g.edges.filter (·.source = n.name)))
    (blockSections m.outlineLines.tail) (g.nodes.filter (·.name ≠ methodName))

/-! ## Blocks -/

/-- The label of a block starts with its number and its offset. -/
theorem exists_blockLabel_eq (s : InstructionStyle) (b : Block) :
    ∃ rest, blockLabel s b = Text.integer b.id ++ lit "\\:\\ " ++ Text.offset b.offset ++ rest ∧
      ∀ c ∈ rest.head?, c = '|' := by
  refine ⟨_, List.append_assoc .., fun c hc => ?_⟩
  exact head?_labelPart_append _ _ c hc

section

variable {m : Method} (h : m.Linked)

include h

/-- The false path of a block of the code is one of its successors. -/
theorem elseTarget_mem_successors {i j : Nat} (hi : i ∈ m.listed)
    (target : (m.block i).elseTarget = some j) : j ∈ (m.block i).successors :=
  (h.blocks_refer _ (h.block_mem hi)).elseTarget_mem j target

/-- The section of a block of the code agrees with its node and with the edges of its arrows. -/
theorem blockAgrees {i : Nat} (hi : i ∈ m.listed) (s : InstructionStyle) :
    BlockAgrees (m.blockSummary i).toSection (flatNode s (m.block i))
      (((m.block i).successors.map (m.block i, ·)).map (arrowEdge m)) where
  heading := by
    obtain ⟨rest, label, stop⟩ := exists_blockLabel_eq s (m.block i)
    exact ⟨_, _, rest, rfl, rfl, label, stop⟩
  successors := by
    refine ⟨_, (m.blockSummary i).head?_body_toSection, ?_⟩
    rw [List.map_map, List.map_map, Method.blockSummary, List.map_map]
    rfl
  else_iff := by
    constructor
    · rintro ⟨k, line⟩
      obtain ⟨j, target, -⟩ := (m.elseLine_mem_section i k).1 line
      refine ⟨arrowEdge m (m.block i, j), ?_, decide_eq_true target⟩
      exact List.mem_map_of_mem (List.mem_map_of_mem (elseTarget_mem_successors h hi target))
    · rintro ⟨e, he, dotted⟩
      obtain ⟨a, ha, rfl⟩ := List.mem_map.1 he
      obtain ⟨j, -, rfl⟩ := List.mem_map.1 ha
      exact ⟨m.blockId j, (m.elseLine_mem_section i _).2 ⟨j, of_decide_eq_true dotted, rfl⟩⟩
  dotted_iff := by
    intro k line e he
    obtain ⟨j, target, rfl⟩ := (m.elseLine_mem_section i k).1 line
    obtain ⟨a, ha, rfl⟩ := List.mem_map.1 he
    obtain ⟨l, hl, rfl⟩ := List.mem_map.1 ha
    have lt := h.successor_lt (elseTarget_mem_successors h hi target)
    show decide ((m.block i).elseTarget = some l) = true ↔ blockName (m.blockId l) = _
    rw [decide_eq_true_iff, target, Option.some_inj]
    constructor
    · intro same
      rw [same]
    · intro same
      exact h.eq_of_blockId_eq lt (h.successor_lt hl) (blockName_injective same.symm)

section

variable (s : InstructionStyle) (raw : Bool) (title : Text)

theorem blockNodes_flat :
    (Reading.mk title (documentRows { raw := raw } s m)).nodes.filter (·.name ≠ methodName)
      = m.blocks.map (flatNode s) := by
  have all : ∀ n ∈ m.blocks.map (flatNode s), decide (n.name ≠ methodName) = true := by
    intro n hn
    obtain ⟨b, -, rfl⟩ := List.mem_map.1 hn
    exact decide_eq_true (blockName_ne_methodName b.id)
  rw [nodes_flat h, List.filter_append, List.filter_eq_self.2 all]
  exact List.append_nil _

/-- The edges from the node of a block are those of its arrows. -/
theorem edges_flat_leaving {b : Block} (hb : b ∈ m.blocks) :
    (Reading.mk title (documentRows { raw := raw } s m)).edges.filter
        (·.source = (flatNode s b).name)
      = (b.successors.map (b, ·)).map (arrowEdge m) := by
  have none : (m.enterBlock.toList.map (entryEdge m)).filter (·.source = blockName b.id) = [] := by
    refine List.filter_eq_nil_iff.2 fun e he fromBlock => ?_
    obtain ⟨i, -, rfl⟩ := List.mem_map.1 he
    exact blockName_ne_methodName b.id (of_decide_eq_true fromBlock).symm
  rw [edges_flat h, List.filter_append]
  exact (congrArg (· ++ _) none).trans (edges_leaving h hb)

/-- The outline of a method whose references fit agrees with its flat document. -/
theorem outlineAgrees_documentRows : OutlineAgrees m ⟨title, documentRows { raw := raw } s m⟩ where
  entry := by
    refine ⟨m.enterBlock.map m.blockId, ?_, ?_⟩
    · have second : m.outlineLines[1]? = m.outlineLines.tail.head? := by
        rw [List.head?_tail]
      rw [second, m.head?_tail_outlineLines]
    · rw [(flatPicture_documentRows h s raw title).leaving_method, List.map_map]
      cases m.enterBlock <;> rfl
  nodes := by
    rw [blockNodes_flat h, List.map_map]
    rfl
  blocks := by
    rw [m.blockSections_tail_outlineLines, blockNodes_flat h, ← h.map_block_listed, List.map_map,
      List.forall₂_map_left_iff, List.forall₂_map_right_iff, List.forall₂_same]
    intro i hi
    have block := blockAgrees h hi s
    rw [← edges_flat_leaving h s raw title (h.block_mem hi)] at block
    exact block

end

end

/-! ## Loaded methods -/

/-- The outline of a parsed method with code, which is made of its lines, says of the control
flow what the flat document does. -/
theorem outline_agrees {text : Text} {ms : List Method} (h : Listing.parse text = .ok ms)
    {m : Method} (hm : m ∈ ms) (code : m.noCode = false) (raw : Bool) (printer : Printer) :
    m.outline = Text.trim (List.intercalate ['\n'] m.outlineLines) ∧
      ∃ t g, render { raw := raw } printer m = some t ∧ ofText? t = some g ∧ OutlineAgrees m g := by
  have linked := Listing.linked_of_parse h hm
  have lines : m.outline = Text.trim (List.intercalate ['\n'] m.outlineLines) := by
    rw [Method.outline, if_neg (by simp [code])]
  exact ⟨lines, _, _, render_eq_some code (fun structured => by cases structured),
    ofText?_document _ printer linked.id_nonneg, outlineAgrees_documentRows linked _ _ _⟩

/-- A listing in which a block has one successor twice and itself among them, a branch stands
behind another instruction, and the text of an instruction looks like a line of an outline. -/
def loopListing : Text := Text.unlines
  [lit "method \"p.A\" \"f()V\" \x7b entry 2",
   lit "block 1 @ 0 -> 1, 2, 1 \x7b insn IF \"a < b\" else 1 insn NOP \"c\\n    else: 2\" \x7d",
   lit "block 2 @ 1048576 -> 1, 1 \x7b insn NOP \"\" insn IF \"a\" else 1 \x7d \x7d"]

def loopMethod : Method where
  className := lit "p.A"
  shortId := lit "f()V"
  blocks :=
    [{ id := 1, successors := [0, 1, 0],
       instructions :=
        [{ opcode := .branch, text := lit "a < b", elseTarget := some 0 },
         { text := lit "c\n    else: 2" }] },
     { id := 2, offset := 1048576, successors := [0, 0],
       instructions := [{}, { opcode := .branch, text := ['a'], elseTarget := some 0 }] }]
  listed := [0, 1]
  entry := some 1

theorem parse_loopListing : Listing.parse loopListing = .ok [loopMethod] :=
  Listing.eq_ok_of_toOption (by decide +kernel)

theorem loopMethod_outline_agrees :
    Listing.parse loopListing = .ok [loopMethod] ∧ loopMethod.noCode = false ∧
      loopMethod.outline = Text.trim (List.intercalate ['\n'] loopMethod.outlineLines) ∧
      ∃ t g, render {} plainPrinter loopMethod = some t ∧ ofText? t = some g ∧
        OutlineAgrees loopMethod g :=
  ⟨parse_loopListing, rfl,
    outline_agrees parse_loopListing List.mem_cons_self rfl false plainPrinter⟩

end Dot

end FlowGraph
