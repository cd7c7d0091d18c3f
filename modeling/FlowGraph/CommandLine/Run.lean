import FlowGraph.CommandLine.Options
import FlowGraph.Export
import FlowGraph.Listing.Read
import FlowGraph.Method.Outline

/-!
# A run of the program

`run` reads the listing named by the arguments, prints outlines if asked to, exports the
graphs, and gives what the run prints and how it ends.  Printing is a function of what
became of each method.

Most of what can go wrong ends the run with an exit code.  A run breaks off if the
listing is no UTF-8, if a path holds a null character, or if there is a graph to write and
no output directory.

The limits of the machinery that runs a program are left out: how deep regions may be nested,
how many digits a number may have that is printed, whether the characters of a report can be
shown where it is printed to, and arguments that are no Unicode text.
-/

namespace FlowGraph.CommandLine

/-! ## Reports -/

/-- Why a run breaks off. -/
inductive Break where
  /-- The listing is not encoded in UTF-8. -/
  | undecodable (e : Text.Utf8Error)
  /-- A file can be neither read nor written. -/
  | blocked (why : Obstacle)
deriving DecidableEq, Repr

/-- The message of a break. -/
def Break.message : Break → Text
  | undecodable e => e.message
  | blocked .nullCharacter => lit "embedded null byte"
  | blocked .noOutput => lit "unsupported operand type(s) for /: 'list' and 'str'"

/-- How a run ends. -/
inductive RunEnd where
  /-- With an exit code. -/
  | exit (code : Nat)
  /-- By breaking off. -/
  | broken (b : Break)
deriving DecidableEq, Repr

/-- What a run prints and how it ends. -/
structure Report where
  /-- What it prints on standard output. -/
  out : Text := []
  /-- What it prints on standard error. -/
  err : Text := []
  /-- How it ends. -/
  ending : RunEnd
deriving DecidableEq, Repr

/-! ## What is printed about a method -/

/-- The lines on standard error about a method and what became of it. -/
def errorLines (o : Options) (m : Method) (outcome : Outcome) : List Text :=
  let debug (t : Text) : List Text := if o.debug then [lit "DEBUG: " ++ t] else []
  let info (t : Text) : List Text := if o.debug || o.verbose then [lit "INFO: " ++ t] else []
  let uncovered : List Text :=
    if o.view.regions then
      m.uncovered.flatMap fun i =>
        debug (lit "Block " ++ Text.integer (m.blockId i) ++ lit " of " ++ m.fullName
          ++ lit " is not covered by any region")
    else []
  match outcome with
  | .skipped why =>
      let reason := match why with
        | .noCode => lit "no code"
        | .noRegionTree => lit "no region tree"
      debug (lit "Skipping " ++ m.fullName ++ lit ": " ++ reason)
        ++ info (lit "Skipped " ++ m.fullName)
  | .written path => uncovered ++ debug (lit "Wrote " ++ path.text)
  | .failed e =>
      uncovered ++ [lit "Error writing graph for " ++ m.fullName ++ lit ": " ++ e.message]
  | .blocked _ => uncovered

/-- The lines on standard output about what became of a method. -/
def outputLines : Outcome → List Text
  | .written path => [path.text]
  | _ => []

/-- How a run ends after the export. -/
def exportEnd (outcomes : List Outcome) : RunEnd :=
  match outcomes.findSome? Outcome.obstacle? with
  | some why => .broken (.blocked why)
  | none => if outcomes.any fun | .failed _ => true | _ => false then .exit 1 else .exit 0

/-- The report of a run that has exported methods. -/
def exportReport (o : Options) (methods : List Method) (outcomes : List (Method × Outcome)) :
    Report where
  out := Text.unlines ((if o.dump then methods.map Method.outline else [])
    ++ outcomes.flatMap fun p => outputLines p.2)
  err := Text.unlines (outcomes.flatMap fun p => errorLines o p.1 p.2)
  ending := exportEnd (outcomes.map Prod.snd)

/-- The report of a run that fails before the export. -/
def failure (about message : Text) : Report :=
  { err := about ++ message ++ ['\n'], ending := .exit 1 }

/-! ## Running -/

section

variable {m : Type → Type} [Monad m]

/-- The target of a run. -/
def Options.target (o : Options) : Target := ⟨o.output, o.view⟩

/-- Runs the program on the bytes of the listing. -/
def runOn (disk : Disk m) (o : Options) (bytes : List UInt8) : m Report := do
  match Text.decode bytes with
  | .error e => pure { ending := .broken (.undecodable e) }
  | .ok text =>
      match Listing.parse (Text.unifyLineBreaks text) with
      | .error e => pure (failure (lit "Error parsing listing file: ") e.message)
      | .ok methods => do
          let outcomes ← o.target.exportAll disk methods
          pure (exportReport o methods outcomes)

/-- Runs the program with some options. -/
def runWith (disk : Disk m) (o : Options) : m Report := do
  if o.listing.hasNull then pure { ending := .broken (.blocked .nullCharacter) }
  else match ← disk.read o.listing with
    | .error e => pure (failure (lit "Error reading listing file: ") e.message)
    | .ok bytes => runOn disk o bytes

/-- Runs the program with some arguments. -/
def run (disk : Disk m) (arguments : List Text) : m Report :=
  match Request.ofArguments arguments with
  | .error e => pure { err := refusal e, ending := .exit 2 }
  | .ok .help => pure { out := helpText, ending := .exit 0 }
  | .ok (.run o) => runWith disk o

end

end FlowGraph.CommandLine
