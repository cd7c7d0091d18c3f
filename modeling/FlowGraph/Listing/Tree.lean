import FlowGraph.Forest
import FlowGraph.Text.Basic

/-!
# Listing trees

What a listing says, before references between its parts are resolved.  Strings,
names and numbers are kept as they are written, strings with their quotes.

A method is a list of items in any order.  An item declares a block or is a clause
about the method.
-/

namespace FlowGraph.Listing

/-- The line of an instruction. -/
structure InstructionTree where
  /-- The name of its opcode. -/
  opcode : Text
  /-- Its text, a string. -/
  text : Text
  /-- The number of the block on its false path. -/
  elseTarget : Option Text
  /-- Its attributes, strings. -/
  attributes : Option (List Text)
deriving DecidableEq, Repr

/-- The declaration of a block. -/
structure BlockTree where
  /-- Its number. -/
  id : Text
  /-- Its code offset. -/
  offset : Text
  /-- The numbers of its successors; the arrow is left out if there are none. -/
  successors : List Text
  /-- Its attributes, strings. -/
  attributes : Option (List Text)
  /-- Its instructions. -/
  instructions : List InstructionTree
deriving DecidableEq, Repr

/-- The line that opens a region. -/
structure RegionLine where
  /-- Its kind, a name. -/
  kind : Text
  /-- Its description, a string. -/
  description : Text
  /-- Its attributes, strings. -/
  attributes : Option (List Text)
deriving DecidableEq, Repr

/-- Regions over the numbers of blocks. -/
abbrev RegionItems := Forest RegionLine Text

/-- A region with everything inside it. -/
structure RegionTree where
  /-- The line that opens it. -/
  line : RegionLine
  /-- The blocks and regions inside it. -/
  body : RegionItems
deriving DecidableEq, Repr

/-- A statement about a method. -/
inductive Clause where
  /-- Access flags, names. -/
  | flags (names : List Text)
  /-- The return type, a string. -/
  | returns (type : Text)
  /-- Argument types, strings, of which there is at least one. -/
  | args (first : Text) (more : List Text)
  /-- Attributes, strings. -/
  | attrs (attributes : List Text)
  /-- The method has no code. -/
  | nocode
  /-- The number of the block the code starts with. -/
  | entry (id : Text)
  /-- The root of the region tree. -/
  | region (tree : RegionTree)
  /-- An exception handler. -/
  | handler (catchType : Option Text) (tree : Option RegionTree)
deriving DecidableEq, Repr

/-- An item of a method. -/
inductive Item where
  /-- Declares a block. -/
  | block (tree : BlockTree)
  /-- States something about the method. -/
  | clause (c : Clause)
deriving DecidableEq, Repr

/-- A method. -/
structure MethodTree where
  /-- The full name of its class, a string. -/
  className : Text
  /-- Its name with its signature, a string. -/
  shortId : Text
  /-- Its items. -/
  items : List Item
deriving DecidableEq, Repr

end FlowGraph.Listing
