import FlowGraph.Text.Basic

/-!
# Paths

A path is a root and the components below it, in a normal form: components are
neither empty nor a single point.  Two points are kept, since what they mean depends on
the file system.

A path with a root takes the place of what it is joined to.  Exactly two slashes at the
start are a root of their own, and any other number of them is the root of one slash.
-/

namespace FlowGraph

/-! ## Splitting a text -/

/-- The parts of a text between the occurrences of a character. -/
def Text.split (c : Char) : Text → List Text
  | [] => [[]]
  | d :: t =>
      if d = c then [] :: Text.split c t
      else match Text.split c t with
        | [] => [[d]]
        | w :: ws => (d :: w) :: ws

/-! ## Paths -/

/-- Where a path starts. -/
inductive Root where
  /-- At the working directory. -/
  | relative
  /-- At the root directory. -/
  | slash
  /-- At the root directory, written with two slashes. -/
  | doubleSlash
deriving DecidableEq, Repr

/-- A path. -/
structure Path where
  /-- Where it starts. -/
  root : Root := .relative
  /-- Its components. -/
  parts : List Text := []
deriving DecidableEq, Repr

namespace Path

/-- Whether a component is kept in a path. -/
def keeps (part : Text) : Bool := part ≠ [] && part ≠ ['.']

/-- The root that some number of leading slashes stands for. -/
def rootOf : Nat → Root
  | 0 => .relative
  | 2 => .doubleSlash
  | _ => .slash

/-- The path a text stands for. -/
def ofText (t : Text) : Path :=
  ⟨rootOf (t.takeWhile (· = '/')).length, (Text.split '/' t).filter keeps⟩

/-- The text of a root. -/
def rootText : Root → Text
  | .relative => []
  | .slash => ['/']
  | .doubleSlash => ['/', '/']

/-- The text of a path. -/
def text (p : Path) : Text :=
  if p = {} then ['.'] else rootText p.root ++ List.intercalate ['/'] p.parts

/-- The second path seen from the first. -/
def join (p q : Path) : Path :=
  if q.root = .relative then { p with parts := p.parts ++ q.parts } else q

/-- The path without its last component. -/
def parent (p : Path) : Path := { p with parts := p.parts.dropLast }

end Path

end FlowGraph
