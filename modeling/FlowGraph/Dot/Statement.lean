import FlowGraph.Dot.Label
import FlowGraph.Dot.Name

/-!
# Statements of a graph

The statements a graph document is made of, each with its one line of text.
`NodeLine` is a statement among the nodes and clusters, at its depth; `Edge` is an
edge between two blocks; `Document` is the whole, in which every node comes before
the first edge.

Only this module knows how a statement is written.
-/

namespace FlowGraph.Dot

/-- A text between the quotes of a label. -/
def quote (label : Text) : Text := '"' :: label ++ ['"']

/-- A label in the braces of a record. -/
def record (label : Text) : Text := quote ('{' :: label ++ ['}'])

/-- A statement among the nodes and clusters. -/
inductive NodeStatement where
  /-- Opens the cluster of a region. -/
  | openCluster (kind : Text) (number : Nat)
  /-- Labels the cluster just opened. -/
  | clusterLabel (label : Text)
  /-- Sets the look of nodes in the cluster just opened. -/
  | clusterStyle
  /-- Closes the innermost cluster. -/
  | closeCluster
  /-- Declares the node of a block, outlined in red or not. -/
  | block (id : Int) (red : Bool) (label : Text)
deriving DecidableEq, Repr

/-- The text of a statement. -/
def NodeStatement.text : NodeStatement → Text
  | openCluster kind number => lit "subgraph " ++ clusterName kind number ++ [' ', '{']
  | clusterLabel label => lit "label = " ++ quote label ++ [';']
  | clusterStyle => lit "node [shape=record,color=blue];"
  | closeCluster => ['}']
  | block id red label =>
      blockName id ++ lit " [shape=record," ++ (if red then lit "color=red," else [])
        ++ lit "label=" ++ record label ++ lit "];"

/-- A statement among the nodes and clusters, with its depth. -/
structure NodeLine where
  /-- One more than the number of clusters around the statement. -/
  depth : Nat
  /-- The statement. -/
  statement : NodeStatement
deriving DecidableEq, Repr

/-- The line of a statement, indented by a tab for each level of depth. -/
def NodeLine.text (l : NodeLine) : Text := List.replicate l.depth '\t' ++ l.statement.text

/-- An edge from a block to one of its successors. -/
structure Edge where
  /-- The number of the block. -/
  source : Int
  /-- The number of the successor. -/
  target : Int
  /-- Whether the successor is on the false path of the block. -/
  dotted : Bool
deriving DecidableEq, Repr

/-- The line of an edge. -/
def Edge.text (e : Edge) : Text :=
  '\t' :: blockName e.source ++ lit " -> " ++ blockName e.target
    ++ (if e.dotted then lit "[style=dotted]" else []) ++ [';']

/-- The graph document of a method. -/
structure Document where
  /-- The escaped full name of the method. -/
  title : Text
  /-- The nodes and clusters. -/
  nodes : List NodeLine
  /-- The label of the node that stands for the method. -/
  methodLabel : Text
  /-- The number of the block at which the code starts. -/
  entry : Option Int
  /-- The edges between blocks. -/
  edges : List Edge
deriving DecidableEq, Repr

namespace Document

/-- The line of the node that stands for the method. -/
def methodLine (d : Document) : Text :=
  lit "\tMethodNode[shape=record,label=" ++ record d.methodLabel ++ lit "];"

/-- The edge from the node of the method to a block. -/
def entryLine (id : Int) : Text := lit "\tMethodNode -> " ++ blockName id ++ [';']

/-- The lines of a document. -/
def lines (d : Document) : List Text :=
  [lit "digraph " ++ quote (lit "CFG for" ++ d.title) ++ [' ', '{']]
  ++ d.nodes.map NodeLine.text
  ++ [d.methodLine]
  ++ d.entry.toList.map entryLine
  ++ d.edges.map Edge.text
  ++ [['}']]

/-- The text of a document: its lines, each ended by a line break. -/
def text (d : Document) : Text := Text.unlines d.lines

end Document

end FlowGraph.Dot
