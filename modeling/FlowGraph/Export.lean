import FlowGraph.Disk
import FlowGraph.Dot.Document
import FlowGraph.Text.Utf8

/-!
# Exporting graphs

Writes the graph of each method to a disk.  A method is left out, exported, or fails; a
failure does not keep the methods after it from being exported.  An obstacle does: without
an output directory there is no path to write to, and a path with a null character cannot
be passed to a disk at all.

What happened is a value, one `Outcome` for each method that was reached.
-/

namespace FlowGraph

/-- Which graphs are exported, and where to. -/
structure Target where
  /-- The directory below which graphs are written, if there is one. -/
  output : Option Path := some {}
  /-- Which graphs are written. -/
  view : Dot.View := {}
deriving DecidableEq, Repr

/-- The path of a method's graph below an output directory. -/
def Target.path (t : Target) (output : Path) (m : Method) : Path := Dot.outputPath output t.view m

/-- The bytes of a method's graph. -/
def Target.content (t : Target) (m : Method) : List UInt8 :=
  Text.encode (Dot.document t.view Dot.plainPrinter m).text

/-- Why an export cannot go on. -/
inductive Obstacle where
  /-- A path holds a null character. -/
  | nullCharacter
  /-- There is no output directory. -/
  | noOutput
deriving DecidableEq, Repr

/-- What became of a method. -/
inductive Outcome where
  /-- It was left out. -/
  | skipped (why : Dot.Skip)
  /-- Its graph was written. -/
  | written (path : Path)
  /-- Its graph could not be written. -/
  | failed (e : DiskError)
  /-- Its graph has no path to be written to. -/
  | blocked (why : Obstacle)
deriving DecidableEq, Repr

/-- What keeps the export from going on after an outcome. -/
def Outcome.obstacle? : Outcome → Option Obstacle
  | blocked why => some why
  | _ => none

/-- Whether a path holds a null character. -/
def Path.hasNull (p : Path) : Bool := p.text.contains '\x00'

section

variable {m : Type → Type} [Monad m]

/-- Writes a file into a directory that is made if it is missing. -/
def writeBelow (disk : Disk m) (path : Path) (content : List UInt8) : m Outcome := do
  if path.parent.hasNull then pure (.blocked .nullCharacter)
  else match ← disk.ensureDirectories path.parent with
    | .error e => pure (.failed e)
    | .ok () =>
        if path.hasNull then pure (.blocked .nullCharacter)
        else match ← disk.write path content with
          | .error e => pure (.failed e)
          | .ok () => pure (.written path)

/-- Exports a method. -/
def Target.export (t : Target) (disk : Disk m) (method : Method) : m Outcome :=
  match Dot.skip? t.view method with
  | some why => pure (.skipped why)
  | none =>
      match t.output with
      | none => pure (.blocked .noOutput)
      | some output => writeBelow disk (t.path output method) (t.content method)

/-- Exports methods in order, up to the first that meets an obstacle. -/
def Target.exportAll (t : Target) (disk : Disk m) : List Method → m (List (Method × Outcome))
  | [] => pure []
  | method :: rest => do
      let outcome ← t.export disk method
      if outcome.obstacle?.isSome then pure [(method, outcome)]
      else do
        let outcomes ← t.exportAll disk rest
        pure ((method, outcome) :: outcomes)

end

end FlowGraph
