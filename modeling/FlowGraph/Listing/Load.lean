import FlowGraph.Listing.Tree
import FlowGraph.Method.Basic
import FlowGraph.Text.Number

/-!
# Loading a listing

`MethodTree.load` resolves the references of a method and gives the method itself.
It passes over the items twice.  The first pass declares the blocks, each with its
number, offset and instructions.  The second resolves what the items say about blocks,
so a block may be referred to before it is declared.

Each pass stops at the first error in the order of the items.  What the items then
amount to depends on their order only among items of one kind, since `assemble` gathers
each part of the method from one kind of item.

In a string of a listing a backslash and the character after it stand for a line break
(`n`), a tab (`t`) or that character itself.
-/

namespace FlowGraph.Listing

/-! ## Errors -/

/-- Why a method of a listing makes no sense. -/
inductive LoadError where
  /-- A number has more digits than can be converted. -/
  | tooManyDigits (count : Nat)
  /-- Two blocks of the method have the same number. -/
  | duplicateBlock (id : Nat) (method : Text)
  /-- There is no opcode of this name. -/
  | unknownOpcode (name : Text)
  /-- No block of the method has this number. -/
  | unknownBlock (id : Nat) (method : Text)
  /-- An instruction that is no conditional branch has an else target. -/
  | elseWithoutBranch (opcode : Opcode) (block : Int)
  /-- An else target is no successor of the block. -/
  | elseNotSuccessor (target : Int) (block : Int)
  /-- A method has a second root region. -/
  | secondRegion (method : Text)
deriving DecidableEq, Repr

/-- The number of digits up to which a number can be converted. -/
def digitLimit : Nat := 4300

/-- The message of a load error. -/
def LoadError.message : LoadError → Text
  | tooManyDigits count =>
      lit "Exceeds the limit (" ++ Text.natural digitLimit
        ++ lit " digits) for integer string conversion: value has " ++ Text.natural count
        ++ lit " digits; use sys.set_int_max_str_digits() to increase the limit"
  | duplicateBlock id method =>
      lit "Duplicate block id " ++ Text.natural id ++ lit " in " ++ method
  | unknownOpcode name => lit "Unknown instruction type: " ++ name
  | unknownBlock id method => lit "Unknown block id " ++ Text.natural id ++ lit " in " ++ method
  | elseWithoutBranch opcode block =>
      lit "Only IF instructions may have an else target, got " ++ opcode.name
        ++ lit " in block " ++ Text.integer block
  | elseNotSuccessor target block =>
      lit "Else target " ++ Text.integer target ++ lit " of block " ++ Text.integer block
        ++ lit " is not one of its successors"
  | secondRegion method => lit "More than one root region in " ++ method

/-! ## Strings -/

/-- The character that a backslash and this character stand for. -/
def unescapeChar (c : Char) : Char :=
  if c = 'n' then '\n' else if c = 't' then '\t' else c

/-- The text that the body of a string stands for. -/
def unescape : Text → Text
  | [] => []
  | [c] => [c]
  | c :: d :: t =>
      if c = '\\' ∧ d ≠ '\n' then unescapeChar d :: unescape t else c :: unescape (d :: t)

/-- The text that a string with its quotes stands for. -/
def unquote (s : Text) : Text := unescape (s.drop 1).dropLast

/-! ## Numbers and lists of strings -/

/-- The number that some digits stand for, unless they are too many. -/
def number (digits : Text) : Except LoadError Nat :=
  if digits.length > digitLimit then .error (.tooManyDigits digits.length)
  else .ok (Text.ofDigits digits)

/-- The texts of an optional list of strings. -/
def texts (strings : Option (List Text)) : List Text := (strings.getD []).map unquote

/-! ## Declaring the blocks -/

/-- An instruction without its else target. -/
def InstructionTree.declare (i : InstructionTree) : Except LoadError Instruction :=
  match Opcode.ofName? i.opcode with
  | some opcode =>
      .ok { opcode := opcode, text := unquote i.text, attributes := texts i.attributes }
  | none => .error (.unknownOpcode i.opcode)

/-- The values of a function on a list, or its first error. -/
def collect {α β : Type} (f : α → Except LoadError β) : List α → Except LoadError (List β)
  | [] => .ok []
  | a :: as => do
      let b ← f a
      let bs ← collect f as
      .ok (b :: bs)

/-- A block without its successors. -/
def BlockTree.declare (b : BlockTree) : Except LoadError Block := do
  let id ← number b.id
  let offset ← number b.offset
  let instructions ← collect InstructionTree.declare b.instructions
  .ok { id := id, offset := offset, attributes := texts b.attributes,
        instructions := instructions }

/-- An item after the first pass. -/
inductive Declaration where
  /-- A block, with the tree that links it to others. -/
  | block (b : Block) (tree : BlockTree)
  /-- A clause, not looked at yet. -/
  | clause (c : Clause)

/-- Declares the blocks among some items, given the numbers of those before. -/
def declareItems (method : Text) : List Int → List Item → Except LoadError (List Declaration)
  | _, [] => .ok []
  | ids, .clause c :: rest => do
      let ds ← declareItems method ids rest
      .ok (.clause c :: ds)
  | ids, .block tree :: rest => do
      let b ← tree.declare
      if b.id ∈ ids then .error (.duplicateBlock b.id.toNat method)
      else
        let ds ← declareItems method (ids ++ [b.id]) rest
        .ok (.block b tree :: ds)

/-- The number of the block that an item declares. -/
def Declaration.id? : Declaration → Option Int
  | block b _ => some b.id
  | clause _ => none

/-! ## Resolving references -/

/-- What references are resolved against. -/
structure Scope where
  /-- The full name of the method. -/
  method : Text
  /-- The numbers of its blocks, by position. -/
  ids : List Int
deriving DecidableEq, Repr

namespace Scope

/-- The position of the block with the number that some digits stand for. -/
def find (s : Scope) (digits : Text) : Except LoadError Nat := do
  let id ← number digits
  match s.ids.findIdx? (· = (id : Int)) with
  | some i => .ok i
  | none => .error (.unknownBlock id s.method)

/-- The instruction of a block with its else target. -/
def linkInstruction (s : Scope) (b : Block) (i : Instruction) (tree : InstructionTree) :
    Except LoadError Instruction :=
  match tree.elseTarget with
  | none => .ok i
  | some digits =>
      if i.opcode ≠ .branch then .error (.elseWithoutBranch i.opcode b.id)
      else do
        let target ← s.find digits
        if target ∈ b.successors then .ok { i with elseTarget := some target }
        else .error (.elseNotSuccessor (s.ids.getD target 0) b.id)

/-- A block with its successors and else targets. -/
def linkBlock (s : Scope) (b : Block) (tree : BlockTree) : Except LoadError Block := do
  let successors ← collect s.find tree.successors
  let linked := { b with successors := successors }
  let instructions ← collect (fun p => s.linkInstruction linked p.1 p.2)
    (b.instructions.zip tree.instructions)
  .ok { linked with instructions := instructions }

/-- The head of a region. -/
def regionHead (line : RegionLine) : RegionHead :=
  { kind := line.kind, description := unquote line.description,
    attributes := texts line.attributes }

/-- The regions of a forest, with the positions of their blocks. -/
def forest (s : Scope) : RegionItems → Except LoadError RegionForest
  | .nil => .ok .nil
  | .leaf digits rest => do
      let i ← s.find digits
      let f ← s.forest rest
      .ok (.leaf i f)
  | .node line body rest => do
      let b ← s.forest body
      let f ← s.forest rest
      .ok (.node (regionHead line) b f)

/-- A region, with the positions of its blocks. -/
def region (s : Scope) (tree : RegionTree) : Except LoadError Region := do
  let body ← s.forest tree.body
  .ok ⟨regionHead tree.line, body⟩

/-- A region that may be missing. -/
def region? (s : Scope) : Option RegionTree → Except LoadError (Option Region)
  | none => .ok none
  | some tree => do
      let r ← s.region tree
      .ok (some r)

end Scope

/-- An item with its references resolved. -/
inductive Resolved where
  | block (b : Block)
  | flags (names : List Text)
  | returns (type : Text)
  | arguments (types : List Text)
  | attributes (texts : List Text)
  | noCode
  | entry (i : Nat)
  | region (r : Region)
  | handler (h : Handler)
deriving DecidableEq, Repr

/-- A clause other than that of the root region. -/
def Scope.clause (s : Scope) : Clause → Except LoadError Resolved
  | .flags names => .ok (.flags names)
  | .returns type => .ok (.returns (unquote type))
  | .args first more => .ok (.arguments ((first :: more).map unquote))
  | .attrs attributes => .ok (.attributes (attributes.map unquote))
  | .nocode => .ok .noCode
  | .entry digits => do
      let i ← s.find digits
      .ok (.entry i)
  | .region tree => do
      let r ← s.region tree
      .ok (.region r)
  | .handler catchType tree => do
      let r ← s.region? tree
      .ok (.handler { catchType := (catchType.map unquote).getD (lit "Throwable"), region := r })

/-- Whether a clause is that of a root region. -/
def Clause.isRegion : Clause → Bool
  | region _ => true
  | _ => false

/-- Resolves some declarations.  The flag says that a root region stood before them. -/
def Scope.resolve (s : Scope) : Bool → List Declaration → Except LoadError (List Resolved)
  | _, [] => .ok []
  | rooted, .block b tree :: rest => do
      let b ← s.linkBlock b tree
      let rs ← s.resolve rooted rest
      .ok (.block b :: rs)
  | rooted, .clause c :: rest =>
      if rooted && c.isRegion then .error (.secondRegion s.method)
      else do
        let r ← s.clause c
        let rs ← s.resolve (rooted || c.isRegion) rest
        .ok (r :: rs)

/-! ## Assembling the method -/

/-- The number of regions in a region, itself included. -/
def regionCount (r : Region) : Nat := r.body.labels.length + 1

/-- A region whose keys are numbers from `n` on, each region before those inside it. -/
def keyRegion (n : Nat) (r : Region) : Region :=
  let key (k : Nat) (h : RegionHead) : RegionHead := { h with key := k }
  ⟨key n r.head, r.body.numberFrom key (n + 1)⟩

/-- Handlers whose regions have keys from `n` on. -/
def keyHandlers : Nat → List Handler → List Handler
  | _, [] => []
  | n, h :: hs =>
      match h.region with
      | none => h :: keyHandlers n hs
      | some r => { h with region := some (keyRegion n r) } :: keyHandlers (n + regionCount r) hs

/-- The method that resolved items make up.  The keys of its regions number them from
zero, the root region before the handlers. -/
def assemble (className shortId : Text) (items : List Resolved) : Method :=
  let blocks := items.filterMap fun | .block b => some b | _ => none
  let root := (items.filterMap fun | .region r => some r | _ => none).head?
  let handlers := items.filterMap fun | .handler h => some h | _ => none
  { className := className
    shortId := shortId
    returnType := (items.filterMap fun | .returns t => some t | _ => none).getLast?.getD
      (lit "void")
    arguments := items.flatMap fun | .arguments ts => ts | _ => []
    flags := items.flatMap fun | .flags ns => ns | _ => []
    attributes := items.flatMap fun | .attributes ts => ts | _ => []
    blocks := blocks
    listed := List.range blocks.length
    region := root.map (keyRegion 0)
    handlers := keyHandlers ((root.map regionCount).getD 0) handlers
    noCode := items.any fun | .noCode => true | _ => false
    entry := (items.filterMap fun | .entry i => some i | _ => none).getLast? }

/-- The method of a tree. -/
def MethodTree.load (tree : MethodTree) : Except LoadError Method := do
  let className := unquote tree.className
  let shortId := unquote tree.shortId
  let fullName := className ++ '.' :: shortId
  let declarations ← declareItems fullName [] tree.items
  let scope : Scope := ⟨fullName, declarations.filterMap Declaration.id?⟩
  let items ← scope.resolve false declarations
  .ok (assemble className shortId items)

end FlowGraph.Listing
