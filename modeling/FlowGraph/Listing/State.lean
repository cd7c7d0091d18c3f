import FlowGraph.Listing.Token
import FlowGraph.Listing.Tree

/-!
# Reader states

A listing is read token by token.  A `State` says where in the grammar the reader
is, and holds what the open method, block, regions and lists have collected so far.
There is one constructor for each place at which a token is awaited.

`State.step` reads one token.  Where something optional may end without a token of
its own, the token belongs to what follows, so `step` closes the open part and tries
again one level up.  Whether a token can be read depends on its terminal only, and
`State.accepts` is that test.

`State.lexable` says which terminals the scanner tries.  That is what the state
accepts, except after the end of a region, after the end of an attribute list and
after a later string of a list.  There the scanner tries the terminals of every place
of that kind at once.
-/

namespace FlowGraph.Listing

/-! ## Open parts -/

/-- A method whose items are being read. -/
structure OpenMethod where
  /-- The methods before it. -/
  done : List MethodTree
  /-- The full name of its class. -/
  className : Text
  /-- Its short id. -/
  shortId : Text
  /-- The items read so far. -/
  items : List Item

/-- A block whose instructions are being read. -/
structure OpenBlock where
  /-- The method around it. -/
  method : OpenMethod
  /-- Its number. -/
  id : Text
  /-- Its offset. -/
  offset : Text
  /-- Its successors. -/
  successors : List Text
  /-- Its attributes. -/
  attributes : Option (List Text)
  /-- The instructions read so far. -/
  instructions : List InstructionTree

/-- The place of a region. -/
inductive RegionSite where
  /-- An item of a method. -/
  | item (m : OpenMethod)
  /-- Inside a handler. -/
  | handler (m : OpenMethod) (catchType : Option Text)
  /-- Inside a region, after what that region already holds. -/
  | child (site : RegionSite) (line : RegionLine) (before : RegionItems)

/-- The place of a bracketed list of attributes. -/
inductive ListSite where
  /-- The attributes of a method. -/
  | item (m : OpenMethod)
  /-- The attributes of a block. -/
  | block (m : OpenMethod) (id offset : Text) (successors : List Text)
  /-- The attributes of an instruction. -/
  | instruction (b : OpenBlock) (opcode text : Text) (elseTarget : Option Text)
  /-- The attributes of a region. -/
  | region (site : RegionSite) (kind description : Text)

/-! ## States -/

/-- Where the reader is. -/
inductive State where
  /-- Between methods. -/
  | top (done : List MethodTree)
  /-- After `method`. -/
  | methodWord (done : List MethodTree)
  /-- After the class name. -/
  | methodClass (done : List MethodTree) (className : Text)
  /-- After the short id. -/
  | methodId (done : List MethodTree) (className shortId : Text)
  /-- Between the items of a method. -/
  | body (m : OpenMethod)
  /-- After `flags` and some names. -/
  | flags (m : OpenMethod) (names : List Text)
  /-- After `returns`. -/
  | returnsWord (m : OpenMethod)
  /-- After `args`. -/
  | argsWord (m : OpenMethod)
  /-- After some arguments. -/
  | args (m : OpenMethod) (first : Text) (more : List Text)
  /-- After some arguments and a comma. -/
  | argsComma (m : OpenMethod) (first : Text) (more : List Text)
  /-- After `attrs`. -/
  | attrsWord (m : OpenMethod)
  /-- After `entry`. -/
  | entryWord (m : OpenMethod)
  /-- After `block` that declares one. -/
  | blockWord (m : OpenMethod)
  /-- After the number of a block. -/
  | blockId (m : OpenMethod) (id : Text)
  /-- After the `@` of a block. -/
  | blockAt (m : OpenMethod) (id : Text)
  /-- After the offset of a block. -/
  | blockOffset (m : OpenMethod) (id offset : Text)
  /-- After the arrow of a block. -/
  | blockArrow (m : OpenMethod) (id offset : Text)
  /-- After some successors of a block. -/
  | blockSuccessor (m : OpenMethod) (id offset first : Text) (more : List Text)
  /-- After some successors of a block and a comma. -/
  | blockComma (m : OpenMethod) (id offset first : Text) (more : List Text)
  /-- After the attributes of a block. -/
  | blockListed (m : OpenMethod) (id offset : Text) (successors attributes : List Text)
  /-- Between the instructions of a block. -/
  | blockBody (b : OpenBlock)
  /-- After `insn`. -/
  | instructionWord (b : OpenBlock)
  /-- After an opcode. -/
  | instructionOpcode (b : OpenBlock) (opcode : Text)
  /-- After the text of an instruction. -/
  | instructionText (b : OpenBlock) (opcode text : Text)
  /-- After `else`. -/
  | elseWord (b : OpenBlock) (opcode text : Text)
  /-- After an else target. -/
  | elseTarget (b : OpenBlock) (opcode text target : Text)
  /-- After `region`. -/
  | regionWord (site : RegionSite)
  /-- After the kind of a region. -/
  | regionKind (site : RegionSite) (kind : Text)
  /-- After the description of a region. -/
  | regionText (site : RegionSite) (kind description : Text)
  /-- After the attributes of a region. -/
  | regionListed (site : RegionSite) (line : RegionLine)
  /-- Between the blocks and regions of a region. -/
  | regionBody (site : RegionSite) (line : RegionLine) (before : RegionItems)
  /-- After `block` inside a region. -/
  | regionRef (site : RegionSite) (line : RegionLine) (before : RegionItems)
  /-- After `handler`. -/
  | handlerWord (m : OpenMethod)
  /-- After the catch type of a handler. -/
  | handlerType (m : OpenMethod) (catchType : Text)
  /-- At the start of the body of a handler. -/
  | handlerBody (m : OpenMethod) (catchType : Option Text)
  /-- After the region of a handler. -/
  | handlerRegion (m : OpenMethod) (catchType : Option Text) (tree : RegionTree)
  /-- After the `[` of a list. -/
  | listOpen (site : ListSite)
  /-- After some strings of a list. -/
  | listString (site : ListSite) (first : Text) (more : List Text)
  /-- After some strings of a list and a comma. -/
  | listComma (site : ListSite) (first : Text) (more : List Text)

/-! ## Closing parts -/

/-- The method with one more item. -/
def OpenMethod.add (m : OpenMethod) (i : Item) : OpenMethod := { m with items := m.items ++ [i] }

/-- The method with one more clause. -/
def OpenMethod.state (m : OpenMethod) (c : Clause) : OpenMethod := m.add (.clause c)

/-- The methods up to and including this one. -/
def OpenMethod.close (m : OpenMethod) : List MethodTree :=
  m.done ++ [⟨m.className, m.shortId, m.items⟩]

/-- The block with one more instruction. -/
def OpenBlock.add (b : OpenBlock) (i : InstructionTree) : OpenBlock :=
  { b with instructions := b.instructions ++ [i] }

/-- The method around the block, with the block. -/
def OpenBlock.close (b : OpenBlock) : OpenMethod :=
  b.method.add (.block ⟨b.id, b.offset, b.successors, b.attributes, b.instructions⟩)

/-- The state after a region. -/
def RegionSite.close (r : RegionTree) : RegionSite → State
  | item m => .body (m.state (.region r))
  | handler m catchType => .handlerRegion m catchType r
  | child site line before => .regionBody site line (before ++ .node r.line r.body .nil)

/-- The state after a list. -/
def ListSite.close (strings : List Text) : ListSite → State
  | item m => .body (m.state (.attrs strings))
  | block m id offset successors => .blockListed m id offset successors strings
  | instruction b opcode text elseTarget =>
      .blockBody (b.add ⟨opcode, text, elseTarget, some strings⟩)
  | region site kind description => .regionListed site ⟨kind, description, some strings⟩

/-! ## Reading a token -/

/-- Reads a token between the items of a method. -/
def OpenMethod.step (m : OpenMethod) : Terminal → Option State
  | .keyword .flags => some (.flags m [])
  | .keyword .returns => some (.returnsWord m)
  | .keyword .args => some (.argsWord m)
  | .keyword .attrs => some (.attrsWord m)
  | .keyword .nocode => some (.body (m.state .nocode))
  | .keyword .entry => some (.entryWord m)
  | .keyword .block => some (.blockWord m)
  | .keyword .region => some (.regionWord (.item m))
  | .keyword .handler => some (.handlerWord m)
  | .rbrace => some (.top m.close)
  | _ => none

/-- Reads a token between the instructions of a block. -/
def OpenBlock.step (b : OpenBlock) : Terminal → Option State
  | .keyword .insn => some (.instructionWord b)
  | .rbrace => some (.body b.close)
  | _ => none

/-- Reads a token. -/
def State.step (s : State) (t : Token) : Option State :=
  match s, t.terminal with
  | top done, .keyword .method => some (methodWord done)
  | methodWord done, .string => some (methodClass done t.lexeme)
  | methodClass done c, .string => some (methodId done c t.lexeme)
  | methodId done c i, .lbrace => some (body ⟨done, c, i, []⟩)
  | body m, k => m.step k
  | flags m names, .name => some (flags m (names ++ [t.lexeme]))
  | flags m names, k => (m.state (.flags names)).step k
  | returnsWord m, .string => some (body (m.state (.returns t.lexeme)))
  | argsWord m, .string => some (args m t.lexeme [])
  | args m first more, .comma => some (argsComma m first more)
  | args m first more, k => (m.state (.args first more)).step k
  | argsComma m first more, .string => some (args m first (more ++ [t.lexeme]))
  | attrsWord m, .lsqb => some (listOpen (.item m))
  | entryWord m, .int => some (body (m.state (.entry t.lexeme)))
  | blockWord m, .int => some (blockId m t.lexeme)
  | blockId m id, .atSign => some (blockAt m id)
  | blockAt m id, .int => some (blockOffset m id t.lexeme)
  | blockOffset m id offset, .arrow => some (blockArrow m id offset)
  | blockOffset m id offset, .lsqb => some (listOpen (.block m id offset []))
  | blockOffset m id offset, .lbrace => some (blockBody ⟨m, id, offset, [], none, []⟩)
  | blockArrow m id offset, .int => some (blockSuccessor m id offset t.lexeme [])
  | blockSuccessor m id offset d ds, .comma => some (blockComma m id offset d ds)
  | blockSuccessor m id offset d ds, .lsqb => some (listOpen (.block m id offset (d :: ds)))
  | blockSuccessor m id offset d ds, .lbrace =>
      some (blockBody ⟨m, id, offset, d :: ds, none, []⟩)
  | blockComma m id offset d ds, .int => some (blockSuccessor m id offset d (ds ++ [t.lexeme]))
  | blockListed m id offset ss as, .lbrace => some (blockBody ⟨m, id, offset, ss, some as, []⟩)
  | blockBody b, k => b.step k
  | instructionWord b, .name => some (instructionOpcode b t.lexeme)
  | instructionOpcode b opcode, .string => some (instructionText b opcode t.lexeme)
  | instructionText b opcode text, .keyword .elseTo => some (elseWord b opcode text)
  | instructionText b opcode text, .lsqb => some (listOpen (.instruction b opcode text none))
  | instructionText b opcode text, k => (b.add ⟨opcode, text, none, none⟩).step k
  | elseWord b opcode text, .int => some (elseTarget b opcode text t.lexeme)
  | elseTarget b opcode text target, .lsqb =>
      some (listOpen (.instruction b opcode text (some target)))
  | elseTarget b opcode text target, k => (b.add ⟨opcode, text, some target, none⟩).step k
  | regionWord site, .name => some (regionKind site t.lexeme)
  | regionKind site kind, .string => some (regionText site kind t.lexeme)
  | regionText site kind text, .lsqb => some (listOpen (.region site kind text))
  | regionText site kind text, .lbrace => some (regionBody site ⟨kind, text, none⟩ .nil)
  | regionListed site line, .lbrace => some (regionBody site line .nil)
  | regionBody site line before, .keyword .region =>
      some (regionWord (.child site line before))
  | regionBody site line before, .keyword .block => some (regionRef site line before)
  | regionBody site line before, .rbrace => some (site.close ⟨line, before⟩)
  | regionRef site line before, .int =>
      some (regionBody site line (before ++ .leaf t.lexeme .nil))
  | handlerWord m, .string => some (handlerType m t.lexeme)
  | handlerWord m, .lbrace => some (handlerBody m none)
  | handlerType m c, .lbrace => some (handlerBody m (some c))
  | handlerBody m c, .keyword .region => some (regionWord (.handler m c))
  | handlerBody m c, .rbrace => some (body (m.state (.handler c none)))
  | handlerRegion m c r, .rbrace => some (body (m.state (.handler c (some r))))
  | listOpen site, .string => some (listString site t.lexeme [])
  | listOpen site, .rsqb => some (site.close [])
  | listString site s ss, .comma => some (listComma site s ss)
  | listString site s ss, .rsqb => some (site.close (s :: ss))
  | listComma site s ss, .string => some (listString site s (ss ++ [t.lexeme]))
  | _, _ => none

/-- Whether a token of this terminal can be read. -/
def State.accepts (s : State) (t : Terminal) : Bool := (s.step ⟨t, []⟩).isSome

/-- The methods read, if the listing may end here. -/
def State.result? : State → Option (List MethodTree)
  | top done => some done
  | _ => none

/-! ## What the scanner tries -/

/-- The places after which the scanner tries more than can be read. -/
inductive Juncture where
  /-- None of the places below. -/
  | plain
  /-- After the `}` of a region. -/
  | regionClosed
  /-- After the `]` of a list. -/
  | listClosed
  /-- After a string behind a comma. -/
  | laterString
deriving DecidableEq, Repr

/-- The juncture after a token of this terminal. -/
def State.juncture : State → Terminal → Juncture
  | regionBody .., .rbrace => .regionClosed
  | listOpen _, .rsqb => .listClosed
  | listString .., .rsqb => .listClosed
  | argsComma .., .string => .laterString
  | listComma .., .string => .laterString
  | _, _ => .plain

/-- The terminals that start an item of a method or end the method. -/
def startsItem : Terminal → Bool
  | .keyword k => k.startsItem
  | .rbrace => true
  | _ => false

/-- Whether the scanner tries this terminal. -/
def State.lexable (s : State) : Juncture → Terminal → Bool
  | .plain, t => s.accepts t
  | .regionClosed, t => startsItem t
  | .listClosed, t => startsItem t || t = .keyword .insn || t = .lbrace
  | .laterString, t => startsItem t || t = .comma || t = .rsqb

end FlowGraph.Listing
