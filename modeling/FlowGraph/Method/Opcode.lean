import FlowGraph.Text.Basic

/-!
# Opcodes

The kinds of instruction a basic block may hold, and their names.  The names are
pairwise different (`name_injective`), so a name determines its opcode.
-/

namespace FlowGraph

/-- The kind of an instruction. -/
inductive Opcode where
  | nop | const | move | arith | neg | cmp
  /-- A conditional branch, the one kind that may have an else target. -/
  | branch
  | goto | switch | ret | throw
  | newInstance | newArray
  | aget | aput | iget | iput | sget | sput
  | checkCast | instanceOf | invoke
  | monitorEnter | monitorExit | moveException | phi
deriving DecidableEq, Repr

namespace Opcode

/-- The name of an opcode, in capitals. -/
def name : Opcode → Text
  | nop => lit "NOP"
  | const => lit "CONST"
  | move => lit "MOVE"
  | arith => lit "ARITH"
  | neg => lit "NEG"
  | cmp => lit "CMP"
  | branch => lit "IF"
  | goto => lit "GOTO"
  | switch => lit "SWITCH"
  | ret => lit "RETURN"
  | throw => lit "THROW"
  | newInstance => lit "NEW_INSTANCE"
  | newArray => lit "NEW_ARRAY"
  | aget => lit "AGET"
  | aput => lit "APUT"
  | iget => lit "IGET"
  | iput => lit "IPUT"
  | sget => lit "SGET"
  | sput => lit "SPUT"
  | checkCast => lit "CHECK_CAST"
  | instanceOf => lit "INSTANCE_OF"
  | invoke => lit "INVOKE"
  | monitorEnter => lit "MONITOR_ENTER"
  | monitorExit => lit "MONITOR_EXIT"
  | moveException => lit "MOVE_EXCEPTION"
  | phi => lit "PHI"

/-- Every opcode. -/
def all : List Opcode :=
  [nop, const, move, arith, neg, cmp, branch, goto, switch, ret, throw, newInstance, newArray,
   aget, aput, iget, iput, sget, sput, checkCast, instanceOf, invoke, monitorEnter, monitorExit,
   moveException, phi]

theorem mem_all (o : Opcode) : o ∈ all := by cases o <;> decide

/-- The opcode of a name written in any mixture of capitals and small letters. -/
def ofName? (t : Text) : Option Opcode :=
  all.find? fun o => o.name = t.map Char.toUpper

theorem ofName?_name (o : Opcode) : ofName? o.name = some o := by
  cases o <;> decide +kernel

theorem name_injective {o p : Opcode} (h : o.name = p.name) : o = p := by
  simpa [ofName?_name] using congrArg ofName? h

end Opcode

end FlowGraph
