import FlowGraph.CommandLine.Run

/-!
# The program

Runs the program on the disk of the machine and prints its report.
-/

namespace FlowGraph

/-- The reason that an error of the machine's disk gives. -/
def Failure.ofError (e : IO.Error) : Failure :=
  match e with
  | .noFileOrDirectory .. => .noSuchFile
  | .alreadyExists .. => .fileExists
  | .inappropriateType _ code details => ofCode code details
  | .invalidArgument _ code details => ofCode code details
  | .permissionDenied _ code details => ofCode code details
  | .resourceExhausted _ code details => ofCode code details
  | e => .other 5 (toString e).toList
where
  /-- The reason for a number of the machine. -/
  ofCode (code : UInt32) (details : String) : Failure :=
    if code = 20 then .notDirectory
    else if code = 21 then .isDirectory
    else if code = 36 then .nameTooLong
    else .other code.toNat details.toList

/-- The result of an action on a path. -/
def attempt {α : Type} (path : Path) (action : IO α) : IO (Except DiskError α) := do
  match ← action.toBaseIO with
  | .ok a => pure (.ok a)
  | .error e => pure (.error ⟨.ofError e, path⟩)

/-- The disk of the machine. -/
def machineDisk : Disk IO where
  read path := attempt path do
    let bytes ← IO.FS.readBinFile (String.ofList path.text)
    pure bytes.toList
  makeDirectory path := attempt path (IO.FS.createDir (String.ofList path.text))
  isDirectory path := do
    match ← (IO.FS.realPath (String.ofList path.text)).toBaseIO with
    | .ok found => pure (.ok (← found.isDir))
    | .error _ => pure (.ok false)
  write path content :=
    attempt path (IO.FS.writeBinFile (String.ofList path.text) content.toByteArray)

end FlowGraph

/-- Runs the program with the arguments of the command line. -/
def main (arguments : List String) : IO UInt32 := do
  let report ← FlowGraph.CommandLine.run FlowGraph.machineDisk (arguments.map String.toList)
  (← IO.getStdout).putStr (String.ofList report.out)
  (← IO.getStderr).putStr (String.ofList report.err)
  match report.ending with
  | .exit code => pure (UInt32.ofNat code)
  | .broken b =>
      (← IO.getStderr).putStr (String.ofList (b.message ++ ['\n']))
      pure 1
