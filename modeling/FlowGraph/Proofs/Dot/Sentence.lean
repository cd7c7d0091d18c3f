import FlowGraph.Proofs.Dot.Bare
import FlowGraph.Proofs.Dot.Drawing

/-!
# Sentences of a graph document

`Sentence` is the grammar of graph documents, told in lines of text and without a word
about methods.  The node and cluster statements come first, then the node of the method,
then the edges.  Every quoted text is closed by its own last character, and every record
has exactly as many bare separators as the index of the sentence says, one number for each
record in the order of the text.

`render_isSentence` says that every document is a sentence, whatever texts the method
holds and whatever the printer gives.  The separators are those of the templates: one
before the attributes and one before the instructions of a block, each only where there
are any, and one before the attributes of the method.  So no text of a method closes a
quote, starts a line or adds a field to a record.
-/

namespace FlowGraph.Dot

/-! ## Words of the grammar -/

/-- A name of letters, digits and underscores that starts with no digit. -/
def IsIdentifier (t : Text) : Prop :=
  ∃ c rest, t = c :: rest ∧ (c.isAlpha || c = '_') ∧ ∀ d ∈ rest, isIdentifierChar d

/-- A text on one line between quotes that are its only bare ones. -/
def IsQuoted (q : Text) : Prop :=
  ∃ body marks, q = quote body ∧ bare body = some marks ∧ '"' ∉ marks ∧ '\n' ∉ body

/-- A quoted record whose bare marks are the outer braces and so many bars. -/
def IsRecord (bars : Nat) (q : Text) : Prop := ∃ label, q = record label ∧ FieldText bars label

theorem FieldText.isQuoted {n : Nat} {body : Text} (h : FieldText n body) :
    IsQuoted (quote body) := by
  obtain ⟨marks, hb, hq, hn, _⟩ := h
  exact ⟨body, marks, rfl, hb, hq, hn⟩

/-- A text behind some tabs. -/
def tabbed (depth : Nat) (t : Text) : Text := List.replicate depth '\t' ++ t

/-! ## Statements -/

/-- Lines that declare nodes and clusters, with the numbers of separators of the records
among them. -/
inductive Declarations : List Nat → List Text → Prop
  | nil : Declarations [] []
  | label {bars : List Nat} {lines : List Text} {q : Text} (depth : Nat) :
      IsQuoted q → Declarations bars lines →
      Declarations bars (tabbed depth (lit "label = " ++ q ++ [';']) :: lines)
  | style {bars : List Nat} {lines : List Text} (depth : Nat) :
      Declarations bars lines →
      Declarations bars (tabbed depth (lit "node [shape=record,color=blue];") :: lines)
  | node {bars : List Nat} {lines : List Text} {name q : Text} {n : Nat} (depth : Nat)
      (red : Bool) :
      IsIdentifier name → IsRecord n q → Declarations bars lines →
      Declarations (n :: bars)
        (tabbed depth (name ++ lit " [shape=record," ++ (if red then lit "color=red," else [])
          ++ lit "label=" ++ q ++ lit "];") :: lines)
  | cluster {inner outer : List Nat} {body lines : List Text} {name : Text} (depth : Nat) :
      IsIdentifier name → Declarations inner body → Declarations outer lines →
      Declarations (inner ++ outer)
        (tabbed depth (lit "subgraph " ++ name ++ [' ', '{']) :: body
          ++ tabbed depth ['}'] :: lines)

/-- A line that declares an edge. -/
def IsEdge (line : Text) : Prop :=
  ∃ (depth : Nat) (source target : Text) (dotted : Bool),
    IsIdentifier source ∧ IsIdentifier target ∧
      line = tabbed depth (source ++ lit " -> " ++ target
        ++ (if dotted then lit "[style=dotted]" else []) ++ [';'])

/-- A graph document, with the numbers of separators of its records. -/
inductive Sentence : List Nat → Text → Prop
  | intro {title q : Text} {bars : List Nat} {n : Nat} {lines edges : List Text} (depth : Nat) :
      IsQuoted title → Declarations bars lines → IsRecord n q → (∀ e ∈ edges, IsEdge e) →
      Sentence (bars ++ [n]) (Text.unlines
        ([lit "digraph " ++ title ++ [' ', '{']] ++ lines
          ++ [tabbed depth (lit "MethodNode[shape=record,label=" ++ q ++ lit "];")]
          ++ edges ++ [['}']]))

theorem Declarations.append {bars bars' : List Nat} {lines lines' : List Text}
    (h : Declarations bars lines) (h' : Declarations bars' lines') :
    Declarations (bars ++ bars') (lines ++ lines') := by
  induction h with
  | nil => exact h'
  | label depth hq _ ih => exact .label depth hq ih
  | style depth _ ih => exact .style depth ih
  | node depth red hname hq _ ih => exact .node depth red hname hq ih
  | cluster depth hname hbody _ _ ih =>
      rw [List.append_assoc, List.append_assoc]
      exact .cluster depth hname hbody ih

/-! ## Names -/

theorem isIdentifierChar_of_isDigit {c : Char} (h : c.isDigit = true) :
    isIdentifierChar c = true := by
  simp [isIdentifierChar, Char.isAlphanum, h]

theorem isIdentifier_blockName {id : Int} (h : 0 ≤ id) : IsIdentifier (blockName id) := by
  obtain ⟨n, rfl⟩ := Int.eq_ofNat_of_zero_le h
  refine ⟨'N', lit "ode_" ++ Text.natural n, rfl, rfl, fun c hc => ?_⟩
  rcases List.mem_append.1 hc with hc | hc
  · exact List.all_eq_true.1 (by decide : (lit "ode_").all isIdentifierChar = true) c hc
  · exact isIdentifierChar_of_isDigit (Text.isDigit_of_mem_natural hc)

/-- Whatever the kind of a region, the name of its cluster is an identifier. -/
theorem isIdentifier_clusterName (kind : Text) (n : Nat) : IsIdentifier (clusterName kind n) := by
  refine ⟨'c', lit "luster_" ++ identifier kind ++ '_' :: Text.natural n, rfl, rfl,
    fun c hc => ?_⟩
  simp only [List.mem_append, List.mem_cons] at hc
  rcases hc with (hc | hc) | rfl | hc
  · exact List.all_eq_true.1 (by decide : (lit "luster_").all isIdentifierChar = true) c hc
  · obtain ⟨d, -, rfl⟩ := List.mem_map.1 hc
    split
    · assumption
    · rfl
  · rfl
  · exact isIdentifierChar_of_isDigit (Text.isDigit_of_mem_natural hc)

/-! ## Labels -/

theorem isAlphanum_of_mem_hexadecimal {n : Nat} {c : Char} (h : c ∈ Text.hexadecimal n) :
    c.isAlphanum = true := by
  have digit : ∀ d < 16, d.digitChar.isAlphanum = true := by decide
  obtain ⟨d, hd, rfl⟩ := Text.exists_digitChar_of_mem_hexadecimal h
  exact digit d hd

namespace FieldText

theorem integer (n : Int) : FieldText 0 (Text.integer n) := by
  have natural : ∀ (k : Nat), ∀ c ∈ Text.natural k, IsPlain c := fun k c hc =>
    isPlain_of_isAlphanum (by simp [Char.isAlphanum, Text.isDigit_of_mem_natural hc])
  cases n with
  | ofNat k => exact of_plain (natural k)
  | negSucc k => exact of_plain (List.forall_mem_cons.2 ⟨by decide, natural (k + 1)⟩)

theorem offset (n : Int) : FieldText 0 (Text.offset n) := by
  refine of_plain fun c hc => ?_
  simp only [Text.offset, List.leftpad, List.mem_append, List.mem_replicate] at hc
  rcases hc with (hc | hc) | ⟨-, rfl⟩ | hc
  · exact isPlain_of_isAlphanum (List.all_eq_true.1 (by decide) c hc)
  · split at hc
    · rw [List.mem_singleton.1 hc]
      decide
    · cases hc
  · decide
  · exact isPlain_of_isAlphanum (isAlphanum_of_mem_hexadecimal hc)

/-- A part of a label adds the bars of its separator, if it is there at all. -/
theorem labelPart {n : Nat} {separator part : Text} (hs : FieldText n separator)
    (hp : FieldText 0 part) :
    FieldText (if part = [] then 0 else n) (labelPart separator part) := by
  cases part with
  | nil => exact nil
  | cons c t => exact hs.append hp

theorem dropLineEnd {t : Text} (h : FieldText 0 t) : FieldText 0 (dropLineEnd t) := by
  unfold Dot.dropLineEnd
  split
  · next t =>
    obtain ⟨marks, hb, hq, hn, hm⟩ := h
    rw [bare_pair] at hb
    exact ⟨marks, hb, hq, fun hc => hn (.tail _ (.tail _ hc)), hm⟩
  · exact h

/-- However instructions are shown, and whatever the printer gives, they add no separator. -/
theorem instructionLines (s : InstructionStyle) (is : List Instruction) :
    FieldText 0 (s.lines is) := by
  unfold InstructionStyle.lines
  split
  · exact flatMap (fun i => (escape (rawLine i)).append lineEnd) is
  · exact dropLineEnd (escape _)

end FieldText

/-- The separators in the label of a block. -/
def blockBars (s : InstructionStyle) (b : Block) : Nat :=
  (if b.attributes = [] then 0 else 1) + (if s.lines b.instructions = [] then 0 else 1)

/-- The separators in the label of a method. -/
def methodBars (m : Method) : Nat := if m.attributes = [] then 0 else 1

theorem fieldText_blockLabel (s : InstructionStyle) (b : Block) :
    FieldText (blockBars s b) (blockLabel s b) := by
  have colon : FieldText 0 (lit "\\:\\ ") := ⟨[], by decide⟩
  have bar : FieldText 1 ['|'] := ⟨['|'], by decide⟩
  have head := ((FieldText.integer b.id).append colon).append (FieldText.offset b.offset)
  have attributes := bar.labelPart (FieldText.attributeLines b.attributes)
  have instructions := bar.labelPart (FieldText.instructionLines s b.instructions)
  have label := (head.append attributes).append instructions
  simp only [Nat.zero_add, attributeLines_eq_nil_iff] at label
  exact label

theorem fieldText_methodLabel (m : Method) : FieldText (methodBars m) (methodLabel m) := by
  have bar : FieldText 1 (lit " | ") := ⟨[' ', '|', ' '], by decide⟩
  have head := (FieldText.escape m.access).append (FieldText.escape (signature m))
  have attributes := bar.labelPart (FieldText.attributeLines m.attributes)
  have label := head.append attributes
  simp only [Nat.zero_add, attributeLines_eq_nil_iff] at label
  exact label

theorem isQuoted_clusterLabel (r : RegionHead) : IsQuoted (quote (clusterLabel r)) := by
  have bar : FieldText 1 (lit " | ") := ⟨[' ', '|', ' '], by decide⟩
  have attributes := bar.labelPart (FieldText.attributeLines r.attributes)
  exact ((FieldText.escape r.description).append attributes).isQuoted

/-! ## Documents -/

section

variable {s : InstructionStyle} {m : Method}

theorem declarations_blockLines (depth : Nat) (red : Bool) (hid : ∀ i, 0 ≤ m.blockId i) :
    ∀ is : List Nat, Declarations (is.map fun i => blockBars s (m.block i))
      ((is.map (blockLine s m depth red)).map NodeLine.text)
  | [] => .nil
  | i :: is =>
      .node depth red (isIdentifier_blockName (hid i)) ⟨_, rfl, fieldText_blockLabel s _⟩
        (declarations_blockLines depth red hid is)

/-- The lines of a forest are declarations, with the separators of its leaves.  The lines
that a node opens a cluster with and the one that closes it stand around those of its
body. -/
theorem declarations_forestLines (hid : ∀ i, 0 ≤ m.blockId i) (f : RegionForest) (depth : Nat)
    (n : Numbering) : Declarations (f.leaves.map fun i => blockBars s (m.block i))
      ((forestLines s m depth n f).map NodeLine.text) := by
  induction f generalizing depth n with
  | nil => exact .nil
  | leaf i rest ih =>
      exact .node depth false (isIdentifier_blockName (hid i)) ⟨_, rfl, fieldText_blockLabel s _⟩
        (ih depth n)
  | node r body rest ihBody ihRest =>
      have inner := ihBody (depth + 1) (n.note r.key)
      have outer := ihRest depth ((n.note r.key).noteForest body)
      have cluster := Declarations.cluster depth
        (isIdentifier_clusterName r.kind (n.number r.key))
        (.label (depth + 1) (isQuoted_clusterLabel r) (.style (depth + 1) inner)) outer
      simpa [forestLines, openingLines, Forest.leaves, NodeLine.text, NodeStatement.text, tabbed]
        using cluster

/-- The lines drawn in a view are declarations, with the separators of the drawn blocks. -/
theorem declarations_drawnLines (v : View) (hid : ∀ i, 0 ≤ m.blockId i) :
    Declarations ((drawnBlocks v m).map fun i => blockBars s (m.block i))
      ((drawnLines v s m).map NodeLine.text) := by
  unfold drawnBlocks drawnLines
  split
  · rw [List.map_append, List.map_append, ← Region.leaves_grove]
    exact (declarations_forestLines hid _ topDepth {}).append
      (declarations_blockLines topDepth true hid _)
  · exact declarations_blockLines topDepth false hid m.listed

end

theorem isEdge_entryLine {id : Int} (h : 0 ≤ id) : IsEdge (Document.entryLine id) :=
  ⟨1, lit "MethodNode", blockName id, false,
    ⟨'M', lit "ethodNode", rfl, rfl, List.all_eq_true.1 (by decide)⟩,
    isIdentifier_blockName h, by simp [Document.entryLine, tabbed, lit]⟩

theorem isEdge_text {e : Edge} (hs : 0 ≤ e.source) (ht : 0 ≤ e.target) : IsEdge e.text :=
  ⟨1, blockName e.source, blockName e.target, e.dotted, isIdentifier_blockName hs,
    isIdentifier_blockName ht, by simp [Edge.text, tabbed]⟩

theorem blockId_nonneg {m : Method} (h : ∀ b ∈ m.blocks, 0 ≤ b.id) (i : Nat) :
    0 ≤ m.blockId i := by
  unfold Method.blockId Method.block
  rw [List.getD_eq_getElem?_getD]
  cases hi : m.blocks[i]? with
  | none => decide
  | some b => exact h b (List.mem_of_getElem? hi)

theorem isEdge_of_mem_edgeLines {v : View} {m : Method} (hid : ∀ i, 0 ≤ m.blockId i) {line : Text}
    (h : line ∈ edgeLines v m) : IsEdge line := by
  rcases List.mem_append.1 h with h | h
  · obtain ⟨i, -, rfl⟩ := List.mem_map.1 h
    exact isEdge_entryLine (hid i)
  · obtain ⟨edge, hedge, rfl⟩ := List.mem_map.1 h
    obtain ⟨i, -, hi⟩ := List.mem_flatMap.1 hedge
    obtain ⟨j, -, rfl⟩ := List.mem_map.1 hi
    exact isEdge_text (hid i) (hid j)

/-- Every document is a sentence, and its records have the separators of their templates
alone: those of the drawn blocks in order, then those of the method. -/
theorem render_isSentence {v : View} {printer : Printer} {m : Method} {t : Text}
    (hid : ∀ b ∈ m.blocks, 0 ≤ b.id) (h : render v printer m = some t) :
    Sentence ((drawnBlocks v m).map (fun i => blockBars ⟨v.raw, printer⟩ (m.block i))
      ++ [methodBars m]) t := by
  have ids := blockId_nonneg hid
  unfold render at h
  split at h
  · cases h
  · cases h
    rw [Document.text, lines_document]
    have title : FieldText 0 (lit "CFG for" ++ escape m.fullName) :=
      FieldText.append (m := 0) ⟨lit "CFG for", by decide⟩ (FieldText.escape m.fullName)
    exact .intro 1 title.isQuoted (declarations_drawnLines v ids)
      ⟨methodLabel m, rfl, fieldText_methodLabel m⟩ fun _ => isEdge_of_mem_edgeLines ids

/-- A method with quotes, braces, bars, backslashes and line breaks in its texts. -/
def hostileMethod : Method where
  className := lit "a\"] \x7d\\"
  shortId := lit "f|\n(x)"
  attributes := [lit "\\", lit "\"\n"]
  blocks :=
    [{ id := 7, attributes := [[]], successors := [0],
       instructions := [{ opcode := .branch, text := lit "if (a < \"\\\") \x7b", elseTarget := some 0 }] }]
  listed := [0]
  region := some ⟨{ kind := lit "x];\n", description := lit "|\"" }, .leaf 0 .nil⟩

theorem hostileMethod_isSentence :
    ∃ t, render { regions := true, raw := true } plainPrinter hostileMethod = some t ∧
      Sentence [2, 1] t := by
  have ids : ∀ b ∈ hostileMethod.blocks, 0 ≤ b.id := by decide
  have drawn : render { regions := true, raw := true } plainPrinter hostileMethod
      = some (document { regions := true, raw := true } plainPrinter hostileMethod).text := rfl
  have sentence := render_isSentence ids drawn
  have bars : (drawnBlocks { regions := true, raw := true } hostileMethod).map
      (fun i => blockBars ⟨true, plainPrinter⟩ (hostileMethod.block i)) ++ [methodBars hostileMethod]
        = [2, 1] := by decide +kernel
  rw [bars] at sentence
  exact ⟨_, drawn, sentence⟩

end FlowGraph.Dot
