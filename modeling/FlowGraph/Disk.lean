import FlowGraph.Path
import FlowGraph.Text.Quoted

/-!
# Disks

What the program needs of the disk it runs on, as a record of operations over any
monad, and the errors they end with.  The program is written over this record once.  It
runs on the disk of the machine, and statements about it are made on a disk that is a
value (`FileSystem`).
-/

namespace FlowGraph

/-! ## Errors -/

/-- The reason for which an operation on a disk fails. -/
inductive Failure where
  | noSuchFile
  | fileExists
  | notDirectory
  | isDirectory
  | nameTooLong
  /-- Any other reason, with its number and wording. -/
  | other (code : Nat) (wording : Text)
deriving DecidableEq, Repr

namespace Failure

/-- The number of a reason. -/
def code : Failure → Nat
  | noSuchFile => 2
  | fileExists => 17
  | notDirectory => 20
  | isDirectory => 21
  | nameTooLong => 36
  | other code _ => code

/-- The wording of a reason. -/
def wording : Failure → Text
  | noSuchFile => lit "No such file or directory"
  | fileExists => lit "File exists"
  | notDirectory => lit "Not a directory"
  | isDirectory => lit "Is a directory"
  | nameTooLong => lit "File name too long"
  | other _ wording => wording

end Failure

/-- An operation on a path that failed. -/
structure DiskError where
  /-- The reason. -/
  failure : Failure
  /-- The path. -/
  path : Path
deriving DecidableEq, Repr

/-- The message of an error. -/
def DiskError.message (e : DiskError) : Text :=
  lit "[Errno " ++ Text.natural e.failure.code ++ lit "] " ++ e.failure.wording ++ lit ": "
    ++ Text.quoted e.path.text

/-! ## Operations -/

/-- The operations of a disk. -/
structure Disk (m : Type → Type) where
  /-- The bytes of a file. -/
  read : Path → m (Except DiskError (List UInt8))
  /-- Makes a directory in one that exists. -/
  makeDirectory : Path → m (Except DiskError Unit)
  /-- Whether there is a directory at a path. -/
  isDirectory : Path → m (Except DiskError Bool)
  /-- Writes a file, in place of one that may be there. -/
  write : Path → List UInt8 → m (Except DiskError Unit)

namespace Disk

variable {m : Type → Type} [Monad m]

/-- The result of a failed attempt to make a directory.  The failure does not matter if
there is a directory already. -/
def tolerate (disk : Disk m) (p : Path) (e : DiskError) : m (Except DiskError Unit) := do
  match ← disk.isDirectory p with
  | .error e' => pure (.error e')
  | .ok true => pure (.ok ())
  | .ok false => pure (.error e)

/-- Makes sure that there is a directory at a path whose parent exists. -/
def ensureDirectory (disk : Disk m) (p : Path) : m (Except DiskError Unit) := do
  match ← disk.makeDirectory p with
  | .ok () => pure (.ok ())
  | .error e => if e.failure = .noSuchFile then pure (.error e) else disk.tolerate p e

/-- Makes sure that there is a directory at a path, making those above it as needed. -/
def ensureDirectories (disk : Disk m) (p : Path) : m (Except DiskError Unit) := do
  match ← disk.makeDirectory p with
  | .ok () => pure (.ok ())
  | .error e =>
      if e.failure ≠ .noSuchFile then disk.tolerate p e
      else if h : p.parts = [] then pure (.error e)
      else
        have : p.parent.parts.length < p.parts.length := by
          have := List.length_pos_iff.2 h
          simp only [Path.parent, List.length_dropLast]
          omega
        match ← ensureDirectories disk p.parent with
        | .error e' => pure (.error e')
        | .ok () => disk.ensureDirectory p
termination_by p.parts.length

end Disk

end FlowGraph
