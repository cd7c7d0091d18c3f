import Mathlib.Data.List.Forall2
import FlowGraph.Proofs.Dot.Reading

/-!
# The rows of a document

`ofText?_document` says what is read in the document of a method: the title, and then
`documentRows`, the rows of the drawn lines, the node of the method, the entry edge and the
edges of the drawn blocks.  No text of the method is mistaken for a statement, since no text
leaves the quotes it stands in.

`nodes_documentRows` and `edges_documentRows` list the nodes and edges among these rows.
-/

namespace FlowGraph.Dot

open Reading

/-! ## Statements of a document -/

/-- What a statement is read as. -/
def NodeStatement.reading : NodeStatement → Statement
  | openCluster kind number => .openCluster (clusterName kind number)
  | clusterLabel label => .clusterLabel label
  | clusterStyle => .clusterStyle
  | closeCluster => .closeCluster
  | block id red label => .node ⟨blockName id, red, label⟩

/-- Whether the texts of a statement stay within their quotes and its number is a natural
one. -/
def NodeStatement.Readable : NodeStatement → Prop
  | clusterLabel label => IsQuoted (quote label)
  | block id _ label => 0 ≤ id ∧ ∃ n, FieldText n label
  | openCluster .. | clusterStyle | closeCluster => True

/-- The row of a line. -/
def NodeLine.row (l : NodeLine) : Row := ⟨l.depth, l.statement.reading⟩

/-- What an edge is read as. -/
def Edge.reading (e : Edge) : Reading.Edge :=
  ⟨blockName e.source, blockName e.target, e.dotted⟩

/-- The name of the node that stands for a method. -/
def methodName : Text := lit "MethodNode"

theorem isIdentifier_methodName : IsIdentifier methodName :=
  ⟨'M', lit "ethodNode", rfl, rfl, List.all_eq_true.1 (by decide)⟩

theorem startsApart_methodName : StartsApart methodName := by
  rintro _ ⟨⟩
  decide

theorem startsApart_blockName (id : Int) : StartsApart (blockName id) := by
  rintro _ ⟨⟩
  decide

section

variable {name source target label : Text}

theorem reads_edge (apart : StartsApart source) (hs : IsIdentifier source)
    (ht : IsIdentifier target) (dotted : Bool) :
    Reads (source ++ lit " -> " ++ target ++ (if dotted then lit "[style=dotted]" else []) ++ [';'])
      (.edge ⟨source, target, dotted⟩) where
  read := statement?_edge apart hs ht dotted
  line := by cases dotted <;> simp [lit, hs.line, ht.line]
  start := by
    simp only [List.append_assoc]
    exact hs.head?_append _

theorem reads_node (apart : StartsApart name) (hn : IsIdentifier name) (spaced red : Bool)
    {n : Nat} (hl : FieldText n label) :
    Reads (name ++ (if spaced then [' '] else []) ++ lit "[shape=record,"
        ++ (if red then lit "color=red," else []) ++ lit "label=" ++ record label ++ lit "];")
      (.node ⟨name, red, label⟩) where
  read := statement?_node apart hn spaced red hl
  line := by
    have oneLine := (isQuoted_record hl).line
    cases spaced <;> cases red <;> simp [lit, hn.line, oneLine]
  start := by
    simp only [List.append_assoc]
    exact hn.head?_append _

end

/-- A readable statement is read as what it says. -/
theorem reads_statement {s : NodeStatement} (h : s.Readable) : Reads s.text s.reading := by
  cases s with
  | openCluster kind number =>
      have name := isIdentifier_clusterName kind number
      exact {
        read := statement?_cluster name
        line := by simp [NodeStatement.text, lit, name.line]
        start := by simp [NodeStatement.text, lit] }
  | clusterLabel label =>
      exact {
        read := statement?_clusterLabel h
        line := by simp [NodeStatement.text, lit, IsQuoted.line h]
        start := by simp [NodeStatement.text, lit] }
  | clusterStyle => exact ⟨by decide, by decide, by decide⟩
  | closeCluster => exact ⟨by decide, by decide, by decide⟩
  | block id red label =>
      obtain ⟨hid, n, hl⟩ := h
      have node := reads_node (startsApart_blockName id) (isIdentifier_blockName hid) true red hl
      simpa [NodeStatement.text, NodeStatement.reading, lit] using node

/-! ## The lines of a document -/

/-- The node that stands for a method. -/
def methodNode (m : Method) : Reading.Node := ⟨methodName, false, methodLabel m⟩

/-- The edge from the node of a method to a block. -/
def entryEdge (m : Method) (i : Nat) : Reading.Edge :=
  ⟨methodName, blockName (m.blockId i), false⟩

/-- The edges of a method's document in a view: the entry edge and those of the drawn
blocks. -/
def drawnEdges (v : View) (m : Method) : List Reading.Edge :=
  m.enterBlock.toList.map (entryEdge m)
    ++ ((drawnBlocks v m).flatMap (blockEdges m)).map Edge.reading

/-- The rows of a method's document in a view. -/
def documentRows (v : View) (s : InstructionStyle) (m : Method) : List Row :=
  (drawnLines v s m).map NodeLine.row
    ++ [⟨topDepth, .node (methodNode m)⟩]
    ++ (drawnEdges v m).map fun e => ⟨topDepth, .edge e⟩

section

variable {s : InstructionStyle} {m : Method}

theorem readable_blockLine (hid : ∀ i, 0 ≤ m.blockId i) (depth : Nat) (red : Bool) (i : Nat) :
    (blockLine s m depth red i).statement.Readable :=
  ⟨hid i, _, fieldText_blockLabel s (m.block i)⟩

theorem readable_forestLines (hid : ∀ i, 0 ≤ m.blockId i) (f : RegionForest) (depth : Nat)
    (n : Numbering) : ∀ l ∈ forestLines s m depth n f, l.statement.Readable := by
  induction f generalizing depth n with
  | nil => exact fun l hl => absurd hl List.not_mem_nil
  | leaf i rest ih =>
      exact List.forall_mem_cons.2 ⟨readable_blockLine hid depth false i, ih depth n⟩
  | node r body rest ihBody ihRest =>
      have opening : ∀ l ∈ openingLines depth n r, l.statement.Readable := by
        simp [openingLines, NodeStatement.Readable, isQuoted_clusterLabel]
      have outer := ihRest depth ((n.note r.key).noteForest body)
      exact List.forall_mem_append.2
        ⟨List.forall_mem_append.2 ⟨opening, ihBody (depth + 1) (n.note r.key)⟩,
          List.forall_mem_cons.2 ⟨trivial, outer⟩⟩

theorem readable_drawnLines (v : View) (hid : ∀ i, 0 ≤ m.blockId i) :
    ∀ l ∈ drawnLines v s m, l.statement.Readable := by
  have blocks : ∀ (red : Bool) (is : List Nat),
      ∀ l ∈ is.map (blockLine s m topDepth red), l.statement.Readable := by
    intro red is l hl
    obtain ⟨i, -, rfl⟩ := List.mem_map.1 hl
    exact readable_blockLine hid topDepth red i
  unfold drawnLines
  split
  · exact List.forall_mem_append.2 ⟨readable_forestLines hid _ topDepth {}, blocks true _⟩
  · exact blocks false m.listed

end

/-- Lines that are each read as a row. -/
theorem readsRow_map {α : Type} {line : α → Text} {row : α → Row} {as : List α}
    (h : ∀ a ∈ as, ReadsRow (line a) (row a)) :
    List.Forall₂ ReadsRow (as.map line) (as.map row) := by
  rw [List.forall₂_map_left_iff, List.forall₂_map_right_iff, List.forall₂_same]
  exact h

/-- The document of a method is read back as its title and its rows. -/
theorem ofText?_document (v : View) (printer : Printer) {m : Method}
    (hid : ∀ b ∈ m.blocks, 0 ≤ b.id) :
    ofText? (document v printer m).text
      = some ⟨lit "CFG for" ++ escape m.fullName, documentRows v ⟨v.raw, printer⟩ m⟩ := by
  have ids := blockId_nonneg hid
  have title : IsQuoted (quote (lit "CFG for" ++ escape m.fullName)) :=
    (FieldText.append (m := 0) ⟨lit "CFG for", by decide⟩ (FieldText.escape m.fullName)).isQuoted
  have nodes : List.Forall₂ ReadsRow
      ((drawnLines v ⟨v.raw, printer⟩ m).map NodeLine.text)
      ((drawnLines v ⟨v.raw, printer⟩ m).map NodeLine.row) :=
    readsRow_map fun l hl => (reads_statement (readable_drawnLines v ids l hl)).row l.depth
  have method : ReadsRow (lit "\tMethodNode[shape=record,label=" ++ record (methodLabel m)
      ++ lit "];") ⟨topDepth, .node (methodNode m)⟩ := by
    have node := reads_node startsApart_methodName isIdentifier_methodName false false
      (fieldText_methodLabel m)
    simpa [tabbed, topDepth, lit, methodName, methodNode] using node.row topDepth
  have entry : List.Forall₂ ReadsRow
      (m.enterBlock.toList.map fun i => Document.entryLine (m.blockId i))
      (m.enterBlock.toList.map fun i => ⟨topDepth, .edge (entryEdge m i)⟩) := by
    refine readsRow_map fun i _ => ?_
    have edge := reads_edge startsApart_methodName isIdentifier_methodName
      (isIdentifier_blockName (ids i)) false
    simpa [tabbed, topDepth, lit, methodName, Document.entryLine, entryEdge]
      using edge.row topDepth
  have edges : List.Forall₂ ReadsRow
      (((drawnBlocks v m).flatMap (blockEdges m)).map Edge.text)
      (((drawnBlocks v m).flatMap (blockEdges m)).map fun e => ⟨topDepth, .edge e.reading⟩) := by
    refine readsRow_map fun e he => ?_
    obtain ⟨i, -, hi⟩ := List.mem_flatMap.1 he
    obtain ⟨j, -, rfl⟩ := List.mem_map.1 hi
    have edge := reads_edge (startsApart_blockName (m.blockId i)) (isIdentifier_blockName (ids i))
      (isIdentifier_blockName (ids j)) ((m.block i).elseTarget = some j)
    simpa [tabbed, topDepth, Edge.text, Edge.reading] using edge.row topDepth
  have rows := List.rel_append (List.rel_append nodes (.cons method .nil))
    (List.rel_append entry edges)
  have same : documentRows v ⟨v.raw, printer⟩ m
      = (drawnLines v ⟨v.raw, printer⟩ m).map NodeLine.row
        ++ [⟨topDepth, .node (methodNode m)⟩]
        ++ (m.enterBlock.toList.map (fun i => ⟨topDepth, .edge (entryEdge m i)⟩)
          ++ ((drawnBlocks v m).flatMap (blockEdges m)).map
            fun e => ⟨topDepth, .edge e.reading⟩) := by
    rw [documentRows, drawnEdges, List.map_append, List.map_map, List.map_map]
    rfl
  rw [Document.text, lines_document, edgeLines, same]
  simpa only [List.append_assoc] using ofText?_unlines title rows

/-- A method with code has a document, by regions if it has a region tree. -/
theorem render_eq_some {v : View} {printer : Printer} {m : Method} (code : m.noCode = false)
    (root : v.regions = true → m.region.isSome = true) :
    render v printer m = some (document v printer m).text := by
  have drawn : skip? v m = none := by
    cases hv : v.regions with
    | false => simp [skip?, code, hv]
    | true =>
        obtain ⟨r, hr⟩ := Option.isSome_iff_exists.1 (root hv)
        simp [skip?, code, hr]
  rw [render, drawn]

/-! ## Nodes and edges -/

/-- The node of the block at a position. -/
def blockNode (s : InstructionStyle) (m : Method) (red : Bool) (i : Nat) : Reading.Node :=
  ⟨blockName (m.blockId i), red, blockLabel s (m.block i)⟩

/-- The nodes of the drawn blocks. -/
def drawnNodes (v : View) (s : InstructionStyle) (m : Method) : List Reading.Node :=
  if v.regions then
    (coveredBlocks m.regions).map (blockNode s m false) ++ m.uncovered.map (blockNode s m true)
  else m.listed.map (blockNode s m false)

section

variable (v : View) (s : InstructionStyle) (m : Method)

theorem nodes_blockLines (red : Bool) : ∀ is : List Nat,
    (is.map (blockLine s m topDepth red)).filterMap (·.statement.reading.toNode?)
      = is.map (blockNode s m red)
  | [] => rfl
  | i :: is => congrArg (blockNode s m red i :: ·) (nodes_blockLines red is)

theorem nodes_forestLines (f : RegionForest) (depth : Nat) (n : Numbering) :
    (forestLines s m depth n f).filterMap (·.statement.reading.toNode?)
      = f.leaves.map (blockNode s m false) := by
  induction f generalizing depth n with
  | nil => rfl
  | leaf i rest ih => exact congrArg (blockNode s m false i :: ·) (ih depth n)
  | node r body rest ihBody ihRest =>
      have inner := ihBody (depth + 1) (n.note r.key)
      have outer := ihRest depth ((n.note r.key).noteForest body)
      rw [forestLines, List.filterMap_append, List.filterMap_append, inner, Forest.leaves,
        List.map_append, ← outer]
      rfl

theorem nodes_drawnLines :
    (drawnLines v s m).filterMap (·.statement.reading.toNode?) = drawnNodes v s m := by
  unfold drawnLines drawnNodes
  split
  · rw [List.filterMap_append, nodes_forestLines, nodes_blockLines, Region.leaves_grove]
  · exact nodes_blockLines s m false m.listed

/-- Drawn lines hold no edges. -/
theorem toEdge?_reading (t : NodeStatement) : t.reading.toEdge? = none := by
  cases t <;> rfl

theorem statements_documentRows (title : Text) :
    (Reading.mk title (documentRows v s m)).statements
      = (drawnLines v s m).map (·.statement.reading) ++ [.node (methodNode m)]
        ++ (drawnEdges v m).map .edge := by
  simp only [Reading.statements, documentRows, List.map_append, List.map_map]
  rfl

theorem nodes_documentRows (title : Text) :
    (Reading.mk title (documentRows v s m)).nodes = drawnNodes v s m ++ [methodNode m] := by
  have noEdges : ((drawnEdges v m).map Statement.edge).filterMap Statement.toNode? = [] := by
    simp [Statement.toNode?]
  rw [Reading.nodes, statements_documentRows, List.filterMap_append, List.filterMap_append,
    noEdges, List.append_nil, List.filterMap_map]
  exact congrArg (· ++ [methodNode m]) (nodes_drawnLines v s m)

theorem edges_documentRows (title : Text) :
    (Reading.mk title (documentRows v s m)).edges = drawnEdges v m := by
  have noNodes : ((drawnLines v s m).map (·.statement.reading)).filterMap Statement.toEdge?
      = [] := by
    rw [List.filterMap_map, List.filterMap_eq_nil_iff]
    exact fun l _ => toEdge?_reading l.statement
  have all : ((drawnEdges v m).map Statement.edge).filterMap Statement.toEdge?
      = drawnEdges v m := by
    rw [List.filterMap_map]
    exact List.filterMap_some
  rw [Reading.edges, statements_documentRows, List.filterMap_append, List.filterMap_append,
    noNodes, all]
  rfl

end

end FlowGraph.Dot
