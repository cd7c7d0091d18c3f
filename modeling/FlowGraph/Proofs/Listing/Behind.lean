import FlowGraph.Listing.Read

/-!
# Reading behind other methods

A state holds the methods read before the open one, and it does nothing with them but keep
them.  `State.behind` puts more methods before those, and `State.step_behind` says that a
token is read there just as without them: the same is accepted, the same is tried, and what
is read is the same with the other methods before it.

So nothing of a method passes on to the next one through the reader, other than the last
token, which an error may name.
-/

namespace FlowGraph.Listing

/-! ## Methods put before others -/

/-- The open method with other methods before it. -/

def OpenMethod.behind (trees : List MethodTree) (m : OpenMethod) : OpenMethod :=
  { m with done := trees ++ m.done }

/-- The open block with other methods before its own. -/
def OpenBlock.behind (trees : List MethodTree) (b : OpenBlock) : OpenBlock :=
  { b with method := b.method.behind trees }

/-- The place of a region, with other methods before its own. -/
def RegionSite.behind (trees : List MethodTree) : RegionSite → RegionSite
  | item m => item (m.behind trees)
  | handler m c => handler (m.behind trees) c
  | child site line before => child (site.behind trees) line before

/-- The place of a list, with other methods before its own. -/
def ListSite.behind (trees : List MethodTree) : ListSite → ListSite
  | item m => item (m.behind trees)
  | block m id offset ds => block (m.behind trees) id offset ds
  | instruction b opcode text target => instruction (b.behind trees) opcode text target
  | region site kind description => region (site.behind trees) kind description

/-- The state with other methods before those it holds. -/
def State.behind (trees : List MethodTree) : State → State
  | top done => top (trees ++ done)
  | methodWord done => methodWord (trees ++ done)
  | methodClass done c => methodClass (trees ++ done) c
  | methodId done c i => methodId (trees ++ done) c i
  | body m => body (m.behind trees)
  | flags m names => flags (m.behind trees) names
  | returnsWord m => returnsWord (m.behind trees)
  | argsWord m => argsWord (m.behind trees)
  | args m first more => args (m.behind trees) first more
  | argsComma m first more => argsComma (m.behind trees) first more
  | attrsWord m => attrsWord (m.behind trees)
  | entryWord m => entryWord (m.behind trees)
  | blockWord m => blockWord (m.behind trees)
  | blockId m id => blockId (m.behind trees) id
  | blockAt m id => blockAt (m.behind trees) id
  | blockOffset m id offset => blockOffset (m.behind trees) id offset
  | blockArrow m id offset => blockArrow (m.behind trees) id offset
  | blockSuccessor m id offset d ds => blockSuccessor (m.behind trees) id offset d ds
  | blockComma m id offset d ds => blockComma (m.behind trees) id offset d ds
  | blockListed m id offset ds as => blockListed (m.behind trees) id offset ds as
  | blockBody b => blockBody (b.behind trees)
  | instructionWord b => instructionWord (b.behind trees)
  | instructionOpcode b opcode => instructionOpcode (b.behind trees) opcode
  | instructionText b opcode text => instructionText (b.behind trees) opcode text
  | elseWord b opcode text => elseWord (b.behind trees) opcode text
  | elseTarget b opcode text d => elseTarget (b.behind trees) opcode text d
  | regionWord site => regionWord (site.behind trees)
  | regionKind site kind => regionKind (site.behind trees) kind
  | regionText site kind description => regionText (site.behind trees) kind description
  | regionListed site line => regionListed (site.behind trees) line
  | regionBody site line before => regionBody (site.behind trees) line before
  | regionRef site line before => regionRef (site.behind trees) line before
  | handlerWord m => handlerWord (m.behind trees)
  | handlerType m c => handlerType (m.behind trees) c
  | handlerBody m c => handlerBody (m.behind trees) c
  | handlerRegion m c r => handlerRegion (m.behind trees) c r
  | listOpen site => listOpen (site.behind trees)
  | listString site s ss => listString (site.behind trees) s ss
  | listComma site s ss => listComma (site.behind trees) s ss

/-! ## Closing parts -/

variable (trees : List MethodTree)

theorem OpenMethod.close_behind (m : OpenMethod) :
    (m.behind trees).close = trees ++ m.close := by
  simp [behind, close]

theorem RegionSite.close_behind (r : RegionTree) (site : RegionSite) :
    (site.close r).behind trees = (site.behind trees).close r := by
  cases site <;> rfl

theorem ListSite.close_behind (ss : List Text) (site : ListSite) :
    (site.close ss).behind trees = (site.behind trees).close ss := by
  cases site <;> rfl

/-! ## Reading a token -/

theorem OpenMethod.step_behind (m : OpenMethod) (k : Terminal) :
    (m.behind trees).step k = (m.step k).map (State.behind trees) := by
  cases k with
  | rbrace => exact congrArg (fun done => some (State.top done)) (m.close_behind trees)
  | keyword j => cases j <;> rfl
  | _ => rfl

theorem OpenBlock.step_behind (b : OpenBlock) (k : Terminal) :
    (b.behind trees).step k = (b.step k).map (State.behind trees) := by
  cases k with
  | keyword j => cases j <;> rfl
  | _ => rfl

/-- A token is read as without the other methods.  Where the token closes something open, it
is read one level up, in a state that has them too. -/
theorem State.step_behind (s : State) (t : Token) :
    (s.behind trees).step t = (s.step t).map (State.behind trees) := by
  obtain ⟨k, w⟩ := t
  cases s with
  | body m => exact m.step_behind trees k
  | blockBody b => exact b.step_behind trees k
  | flags m names =>
      have closed := (m.state (.flags names)).step_behind trees k
      cases k with
      | name => rfl
      | _ => exact closed
  | args m first more =>
      have closed := (m.state (.args first more)).step_behind trees k
      cases k with
      | comma => rfl
      | _ => exact closed
  | instructionText b opcode text =>
      have closed := (b.add ⟨opcode, text, none, none⟩).step_behind trees k
      cases k with
      | lsqb => rfl
      | keyword j =>
          cases j with
          | elseTo => rfl
          | _ => exact closed
      | _ => exact closed
  | elseTarget b opcode text d =>
      have closed := (b.add ⟨opcode, text, some d, none⟩).step_behind trees k
      cases k with
      | lsqb => rfl
      | _ => exact closed
  | regionBody site line before =>
      cases k with
      | rbrace => exact congrArg some (site.close_behind trees _).symm
      | keyword j => cases j <;> rfl
      | _ => rfl
  | listOpen site =>
      cases k with
      | rsqb => exact congrArg some (site.close_behind trees _).symm
      | _ => rfl
  | listString site first more =>
      cases k with
      | rsqb => exact congrArg some (site.close_behind trees _).symm
      | _ => rfl
  | top done =>
      cases k with
      | keyword j => cases j <;> rfl
      | _ => rfl
  | handlerBody m c =>
      cases k with
      | keyword j => cases j <;> rfl
      | _ => rfl
  | _ => cases k <;> rfl

theorem State.accepts_behind (s : State) : (s.behind trees).accepts = s.accepts := by
  funext k
  simp [accepts, step_behind]

theorem State.result?_behind (s : State) :
    (s.behind trees).result? = s.result?.map (trees ++ ·) := by
  cases s <;> rfl

theorem State.juncture_behind (s : State) (k : Terminal) :
    (s.behind trees).juncture k = s.juncture k := by
  cases s with
  | regionBody | argsComma | listOpen | listString | listComma => cases k <;> rfl
  | _ => rfl

theorem State.lexable_behind (s : State) (j : Juncture) :
    (s.behind trees).lexable j = s.lexable j := by
  funext k
  cases j with
  | plain => exact congrFun (s.accepts_behind trees) k
  | _ => rfl

end FlowGraph.Listing
