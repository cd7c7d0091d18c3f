import FlowGraph.Disk
import FlowGraph.Text.Utf8

/-!
# File systems

A file system is a tree of directories and files, held as a table from absolute
locations to what is there, together with the working directory.  The root is a
directory without an entry of its own.

`disk` gives the operations of a disk on it.  A path is followed one component at a
time, each looked up in a directory.  A component may have 255 bytes, and a path fewer
than 4096.

There is nothing else to a file system here.  It has no links, so every location has one
way down from the root, and no permissions, devices or limit of space, so an operation
fails only for what is at the locations on the way or for a name or path that is too long.  What is
said about runs on a file system is said about such trees.  `Disk` is open to others.
-/

namespace FlowGraph

/-- An absolute location: the components below the root. -/
abbrev Location := List Text

/-- What is at a location. -/
inductive Entry where
  | directory
  | file (content : List UInt8)
deriving DecidableEq, Repr

/-- A file system. -/
structure FileSystem where
  /-- What is at each location but the root. -/
  entries : List (Location × Entry) := []
  /-- The working directory. -/
  working : Location := []
deriving DecidableEq, Repr

namespace FileSystem

/-! ## Entries -/

/-- What is at a location. -/
def get? (fs : FileSystem) (l : Location) : Option Entry :=
  if l = [] then some .directory else fs.entries.lookup l

/-- The file system with an entry put at a location. -/
def put (fs : FileSystem) (l : Location) (e : Entry) : FileSystem :=
  { fs with entries := (l, e) :: fs.entries.filter fun p => p.1 ≠ l }

/-- The locations of the files, with their contents. -/
def files (fs : FileSystem) : List (Location × List UInt8) :=
  fs.entries.filterMap fun
    | (l, .file content) => some (l, content)
    | _ => none

/-! ## Following paths -/

/-- The number of bytes of a text. -/
def byteLength (t : Text) : Nat := (Text.encode t).length

/-- The number of bytes that a component may have. -/
def nameLimit : Nat := 255

/-- The number of bytes from which on a path is too long. -/
def pathLimit : Nat := 4096

/-- The component that leads to the directory above. -/
def up : Text := ['.', '.']

/-- The location reached from a location through some components. -/
def follow (fs : FileSystem) : Location → List Text → Except Failure Location
  | here, [] => .ok here
  | here, part :: rest =>
      match fs.get? here with
      | none => .error .noSuchFile
      | some (.file _) => .error .notDirectory
      | some .directory =>
          if part = up then fs.follow here.dropLast rest
          else if byteLength part > nameLimit then .error .nameTooLong
          else match fs.get? (here ++ [part]) with
            | none => .error .noSuchFile
            | some _ => fs.follow (here ++ [part]) rest

/-- The location at which a path starts. -/
def start (fs : FileSystem) (p : Path) : Location :=
  match p.root with
  | .relative => fs.working
  | _ => []

/-- The location of a path. -/
def locate (fs : FileSystem) (p : Path) : Except Failure Location :=
  if byteLength p.text ≥ pathLimit then .error .nameTooLong
  else fs.follow (fs.start p) p.parts

/-- The location of the directory in which a path ends, and the last component, unless
the path has none or ends in the one that leads up. -/
def locateNew (fs : FileSystem) (p : Path) : Except Failure (Option (Location × Text)) :=
  if byteLength p.text ≥ pathLimit then .error .nameTooLong
  else
    match fs.follow (fs.start p) p.parts.dropLast with
    | .error e => .error e
    | .ok l =>
        match fs.get? l with
        | none => .error .noSuchFile
        | some (.file _) => .error .notDirectory
        | some .directory =>
            match p.parts.getLast? with
            | none => .ok none
            | some part =>
                if part = up then .ok none
                else if byteLength part > nameLimit then .error .nameTooLong
                else .ok (some (l, part))

/-! ## Operations -/

/-- The bytes of a file. -/
def read (fs : FileSystem) (p : Path) : Except DiskError (List UInt8) :=
  match fs.locate p with
  | .error e => .error ⟨e, p⟩
  | .ok l =>
      match fs.get? l with
      | none => .error ⟨.noSuchFile, p⟩
      | some .directory => .error ⟨.isDirectory, p⟩
      | some (.file content) => .ok content

/-- Whether there is a directory at a path. -/
def isDirectory (fs : FileSystem) (p : Path) : Except DiskError Bool :=
  match fs.locate p with
  | .error .nameTooLong => .error ⟨.nameTooLong, p⟩
  | .error _ => .ok false
  | .ok l => .ok (fs.get? l = some .directory)

/-- The file system with a new directory. -/
def makeDirectory (fs : FileSystem) (p : Path) : Except DiskError FileSystem :=
  match fs.locateNew p with
  | .error e => .error ⟨e, p⟩
  | .ok none => .error ⟨.fileExists, p⟩
  | .ok (some (l, part)) =>
      match fs.get? (l ++ [part]) with
      | some _ => .error ⟨.fileExists, p⟩
      | none => .ok (fs.put (l ++ [part]) .directory)

/-- The file system with a file written. -/
def write (fs : FileSystem) (p : Path) (content : List UInt8) : Except DiskError FileSystem :=
  match fs.locateNew p with
  | .error e => .error ⟨e, p⟩
  | .ok none => .error ⟨.isDirectory, p⟩
  | .ok (some (l, part)) =>
      match fs.get? (l ++ [part]) with
      | some .directory => .error ⟨.isDirectory, p⟩
      | _ => .ok (fs.put (l ++ [part]) (.file content))

/-- The result of an operation that changes the file system if it succeeds. -/
def change (op : FileSystem → Except DiskError FileSystem) :
    StateM FileSystem (Except DiskError Unit) := fun fs =>
  match op fs with
  | .ok fs' => (.ok (), fs')
  | .error e => (.error e, fs)

/-- A file system as a disk. -/
def disk : Disk (StateM FileSystem) where
  read p := fun fs => (fs.read p, fs)
  makeDirectory p := change fun fs => fs.makeDirectory p
  isDirectory p := fun fs => (fs.isDirectory p, fs)
  write p content := change fun fs => fs.write p content

end FileSystem

end FlowGraph
