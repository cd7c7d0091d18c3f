import FlowGraph.Proofs.Dot.DocumentRows
import FlowGraph.Proofs.Listing.WellFormed

/-!
# Agreement of the two drawings

A method drawn flat and the same method drawn by regions show one control-flow graph.  The
drawings visit the blocks in different orders, and by regions a block may come several
times.  But where the references of a method fit its table, each drawing visits every
block of the table and no other (`mem_drawnBlocks`).  So both declare the same nodes and
the same edges (`sameGraph_documentRows`), and no edge dangles (`closed_documentRows`).
-/

namespace FlowGraph.Dot

open Reading

/-! ## Graphs read from documents -/

/-- The nodes of a document by name and label, whether red or not. -/
def Reading.labelled (g : Reading) : List (Text × Text) := g.nodes.map fun n => (n.name, n.label)

/-- Whether two documents have the same nodes and the same edges, in whatever order and number. -/
structure Reading.SameGraph (g g' : Reading) : Prop where
  /-- The nodes are the same. -/
  nodes : ∀ p, p ∈ g.labelled ↔ p ∈ g'.labelled
  /-- The edges are the same, with the same styles. -/
  edges : ∀ e, e ∈ g.edges ↔ e ∈ g'.edges

/-- Whether every edge of a document runs between nodes that the document declares. -/
def Reading.Closed (g : Reading) : Prop :=
  ∀ e ∈ g.edges, e.source ∈ g.nodes.map Node.name ∧ e.target ∈ g.nodes.map Node.name

/-! ## The blocks of a drawing -/

section

variable {m : Method}

/-- In every view, the blocks drawn are those of the table. -/
theorem mem_drawnBlocks (h : m.Linked) (v : View) {i : Nat} :
    i ∈ drawnBlocks v m ↔ i < m.blocks.length := by
  have listed : i ∈ m.listed ↔ i < m.blocks.length := by rw [h.listed_eq, List.mem_range]
  unfold drawnBlocks
  split
  · constructor
    · intro mem
      rcases List.mem_append.1 mem with covered | free
      · obtain ⟨r, hr, hi⟩ := List.mem_flatMap.1 covered
        exact h.regions_lt r hr i hi
      · exact listed.1 (List.mem_filter.1 free).1
    · intro lt
      by_cases covered : i ∈ coveredBlocks m.regions
      · exact List.mem_append_left _ covered
      · exact List.mem_append_right _ (List.mem_filter.2 ⟨listed.2 lt, by simpa using covered⟩)
  · exact listed

end

/-! ## The graph of a view -/

section

variable (v : View) (s : InstructionStyle) (m : Method) (title : Text)

theorem labelled_documentRows : (Reading.mk title (documentRows v s m)).labelled
    = (drawnBlocks v m).map (fun i => (blockName (m.blockId i), blockLabel s (m.block i)))
      ++ [(methodName, methodLabel m)] := by
  rw [labelled, nodes_documentRows, List.map_append]
  congr 1
  unfold drawnNodes drawnBlocks
  split <;> simp [blockNode, Function.comp_def]

theorem names_documentRows : (Reading.mk title (documentRows v s m)).nodes.map Node.name
    = (drawnBlocks v m).map (fun i => blockName (m.blockId i)) ++ [methodName] := by
  have names := congrArg (List.map Prod.fst) (labelled_documentRows v s m title)
  simpa [labelled, Function.comp_def] using names

end

section

variable {m : Method} (h : m.Linked) (s : InstructionStyle)

include h

theorem sameGraph_documentRows (v v' : View) (title title' : Text) :
    (Reading.mk title (documentRows v s m)).SameGraph ⟨title', documentRows v' s m⟩ where
  nodes := by
    intro p
    simp only [labelled_documentRows, List.mem_append, List.mem_map, mem_drawnBlocks h]
  edges := by
    intro e
    simp only [edges_documentRows, drawnEdges, List.mem_append, List.mem_map, List.mem_flatMap,
      mem_drawnBlocks h]

theorem closed_documentRows (v : View) (title : Text) :
    (Reading.mk title (documentRows v s m)).Closed := by
  have block : ∀ {i}, i < m.blocks.length →
      blockName (m.blockId i) ∈ (Reading.mk title (documentRows v s m)).nodes.map Node.name := by
    intro i lt
    rw [names_documentRows]
    exact List.mem_append_left _ (List.mem_map.2 ⟨i, (mem_drawnBlocks h v).2 lt, rfl⟩)
  intro e he
  rw [edges_documentRows] at he
  rcases List.mem_append.1 he with he | he
  · obtain ⟨i, hi, rfl⟩ := List.mem_map.1 he
    refine ⟨?_, block (h.enterBlock_lt (Option.mem_toList.1 hi))⟩
    rw [names_documentRows]
    exact List.mem_append_right _ List.mem_cons_self
  · obtain ⟨edge, hedge, rfl⟩ := List.mem_map.1 he
    obtain ⟨i, hi, mem⟩ := List.mem_flatMap.1 hedge
    obtain ⟨j, hj, rfl⟩ := List.mem_map.1 mem
    exact ⟨block ((mem_drawnBlocks h v).1 hi), block (h.successor_lt hj)⟩

end

/-! ## Loaded methods -/

/-- A parsed method is drawn flat and by regions as one graph.  Both documents declare its
own node, and they have an edge from there to the block that the code starts with. -/
theorem flat_and_regions_sameGraph {text : Text} {ms : List Method}
    (h : Listing.parse text = .ok ms) {m : Method} (hm : m ∈ ms) (code : m.noCode = false)
    (root : m.region.isSome = true) (raw : Bool) (printer : Printer) :
    ∃ flat byRegions g g',
      render { raw := raw } printer m = some flat ∧
      render { regions := true, raw := raw } printer m = some byRegions ∧
      ofText? flat = some g ∧ ofText? byRegions = some g' ∧
      g.SameGraph g' ∧ g.Closed ∧ g'.Closed ∧
      (methodName, methodLabel m) ∈ g.labelled ∧
      ∀ i ∈ m.enterBlock, ⟨methodName, blockName (m.blockId i), false⟩ ∈ g.edges := by
  have linked := Listing.linked_of_parse h hm
  refine ⟨_, _, _, _, render_eq_some code (fun structured => by cases structured),
    render_eq_some code (fun _ => root), ofText?_document _ printer linked.id_nonneg,
    ofText?_document _ printer linked.id_nonneg, sameGraph_documentRows linked _ _ _ _ _,
    closed_documentRows linked _ _ _, closed_documentRows linked _ _ _, ?_, fun i hi => ?_⟩
  · rw [labelled_documentRows]
    exact List.mem_append_right _ List.mem_cons_self
  · rw [edges_documentRows]
    exact List.mem_append_left _ (List.mem_map.2 ⟨i, Option.mem_toList.2 hi, rfl⟩)

/-- A listing whose texts look like statements of a graph document. -/
def decoyListing : Text := Text.unlines
  [lit "method \"p.A\" \"f()V\" \x7b attrs [\"\\\"];\\n\\t\x7d\"] entry 2",
   lit "block 1 @ 0 -> 2, 3 [\"subgraph x \x7b\"]",
   lit "\x7b insn IF \"if (a < b)\\n\x7d -> Node_9;\" else 3 \x7d",
   lit "block 2 @ 1048576 -> 1 \x7b insn GOTO \"\\\\\" [\"|\"] \x7d",
   lit "block 3 @ 10 \x7b \x7d block 4 @ 99 -> 4 \x7b \x7d",
   lit "region Loop \"while \x7b\" [\"\x7d\"]",
   lit "\x7b block 1 region If \"x\" \x7b block 2 \x7d block 1 \x7d",
   lit "handler \x7b \x7d",
   lit "handler \"E\" \x7b region Catch_0 \"subgraph\\n\" \x7b block 3 \x7d \x7d \x7d"]

def decoyMethod : Method where
  className := lit "p.A"
  shortId := lit "f()V"
  attributes := [lit "\"];\n\t\x7d"]
  blocks :=
    [{ id := 1, attributes := [lit "subgraph x \x7b"], successors := [1, 2],
       instructions :=
        [{ opcode := .branch, text := lit "if (a < b)\n\x7d -> Node_9;", elseTarget := some 2 }] },
     { id := 2, offset := 1048576, successors := [0],
       instructions := [{ opcode := .goto, text := ['\\'], attributes := [['|']] }] },
     { id := 3, offset := 10 },
     { id := 4, offset := 99, successors := [3] }]
  listed := [0, 1, 2, 3]
  region := some
    ⟨{ key := 0, kind := lit "Loop", description := lit "while \x7b", attributes := [['}']] },
    .leaf 0 (.node { key := 1, kind := lit "If", description := lit "x" } (.leaf 1 .nil)
      (.leaf 0 .nil))⟩
  handlers :=
    [{},
     { catchType := ['E'],
       region := some ⟨{ key := 2, kind := lit "Catch_0", description := lit "subgraph\n" },
        .leaf 2 .nil⟩ }]
  entry := some 1

theorem parse_decoyListing : Listing.parse decoyListing = .ok [decoyMethod] :=
  Listing.eq_ok_of_toOption (by decide +kernel)

theorem decoyMethod_sameGraph :
    Listing.parse decoyListing = .ok [decoyMethod] ∧
      ∃ flat byRegions g g',
        render {} plainPrinter decoyMethod = some flat ∧
        render { regions := true } plainPrinter decoyMethod = some byRegions ∧
        ofText? flat = some g ∧ ofText? byRegions = some g' ∧
        g.SameGraph g' ∧ g.Closed ∧ g'.Closed := by
  obtain ⟨flat, byRegions, g, g', hf, hr, hg, hg', same, closed, closed', -⟩ :=
    flat_and_regions_sameGraph parse_decoyListing List.mem_cons_self rfl rfl false plainPrinter
  exact ⟨parse_decoyListing, flat, byRegions, g, g', hf, hr, hg, hg', same, closed, closed'⟩

end FlowGraph.Dot
