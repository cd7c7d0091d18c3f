import FlowGraph.Dot.Drawing
import FlowGraph.Path

/-!
# Graph documents

The document of a method: a title, the drawing of its blocks or regions, a node that
stands for the method itself, and an edge from there to the block where its code starts.
A method without code has no document, and one without a region tree has none by regions.

The document is written below the output directory, in a directory for the class of the
method and under a file name that shows the short id and how the graph was drawn.
-/

namespace FlowGraph.Dot

/-- Which graph of a method is meant. -/
structure View where
  /-- Whether it is drawn by regions. -/
  regions : Bool := false
  /-- Whether instructions are shown raw. -/
  raw : Bool := false
deriving DecidableEq, Repr

/-- Why a method is left out. -/
inductive Skip where
  /-- It has no code. -/
  | noCode
  /-- It is to be drawn by regions and has no region tree. -/
  | noRegionTree
deriving DecidableEq, Repr

/-- Why a method is left out, if it is. -/
def skip? (v : View) (m : Method) : Option Skip :=
  if m.noCode then some .noCode
  else if v.regions && m.region.isNone then some .noRegionTree
  else none

/-- The return type, the full name up to the signature, and the arguments. -/
def signature (m : Method) : Text :=
  m.returnType ++ ' ' :: m.className ++ '.' :: m.name
    ++ '(' :: commaSeparated m.arguments ++ lit ") "

/-- The label of the node that stands for a method. -/
def methodLabel (m : Method) : Text :=
  escape m.access ++ escape (signature m)
    ++ labelPart (lit " | ") (attributeLines m.attributes)

/-- The drawing of a method. -/
def draw (v : View) (printer : Printer) (m : Method) : Drawing :=
  let style : InstructionStyle := ⟨v.raw, printer⟩
  if v.regions then Drawing.addRegions style m {} else Drawing.addBlocks style m {}

/-- The document of a method that is not left out. -/
def document (v : View) (printer : Printer) (m : Method) : Document :=
  let drawing := draw v printer m
  { title := escape m.fullName
    nodes := drawing.nodes
    methodLabel := methodLabel m
    entry := m.enterBlock.map m.blockId
    edges := drawing.edges }

/-- The text of the document of a method, unless the method is left out. -/
def render (v : View) (printer : Printer) (m : Method) : Option Text :=
  match skip? v m with
  | some _ => none
  | none => some (document v printer m).text

/-! ## Files -/

/-- What a character of a short id becomes in a file name. -/
def fileNameChar (c : Char) : Text :=
  if c ∈ ['.', '/', ';', '$', ' ', ',', '<'] then ['_']
  else if c = '[' then ['A']
  else if c ∈ [']', '>', '?', '*'] then []
  else [c]

/-- A short id made safe for a file name. -/
def escapeFileName (t : Text) : Text := t.flatMap fileNameChar

/-- The file name of a graph. -/
def fileName (v : View) (m : Method) : Text :=
  escapeFileName m.shortId ++ (if v.regions then lit ".regions" else [])
    ++ (if v.raw then lit ".raw" else []) ++ lit ".dot"

/-- The directory for the graphs of the method's class. -/
def classDirectory (m : Method) : Text := m.classPath ++ lit "_graphs"

/-- Where a graph is written. -/
def outputPath (out : Path) (v : View) (m : Method) : Path :=
  (out.join (.ofText (classDirectory m))).join (.ofText (fileName v m))

end FlowGraph.Dot
