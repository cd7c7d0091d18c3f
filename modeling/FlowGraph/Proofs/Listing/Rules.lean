import FlowGraph.Proofs.Listing.Loading

/-!
# The rules of a listing

When the methods of a listing make sense, said twice and without a word about loading.
`MethodTree.MakesSense` is a list of conditions in no order.  `MethodTree.rules` is the
list of the single rules in the order in which they are looked at, each about one place of
the method, and `Rule.breach?` is the error of a rule that is broken.

A rule knows what it is about and nothing else.  So a number that is too long to be
converted may break a rule about its value too, and only the order says which of the two is
reported.  `makesSense_iff` says that a method makes sense exactly if it breaks no rule.
-/

namespace FlowGraph

theorem Opcode.ofName?_eq_some_iff {t : Text} {o : Opcode} :
    ofName? t = some o ↔ o.name = t.map Char.toUpper := by
  unfold ofName?
  constructor
  · intro h
    simpa using List.find?_some h
  · intro h
    have some : (all.find? fun o => o.name = t.map Char.toUpper).isSome = true :=
      List.find?_isSome.2 ⟨o, mem_all o, decide_eq_true h⟩
    obtain ⟨p, found⟩ := Option.isSome_iff_exists.1 some
    have same : p.name = t.map Char.toUpper := by
      have hp := List.find?_some found
      exact of_decide_eq_true hp
    rw [found, name_injective (same.trans h.symm)]

namespace Listing

/-! ## What a method declares and refers to -/

/-- The block that an item declares. -/
def Item.block? : Item → Option BlockTree
  | block b => some b
  | clause _ => none

/-- Whether an item is a root region. -/
def Item.isRegion : Item → Bool
  | block _ => false
  | clause c => c.isRegion

/-- The blocks that a method declares, in order. -/
def MethodTree.blocks (t : MethodTree) : List BlockTree := t.items.filterMap Item.block?

/-- The number of a block. -/
def BlockTree.number (b : BlockTree) : Nat := Text.ofDigits b.id

/-- The numbers of the successors of a block. -/
def BlockTree.successorNumbers (b : BlockTree) : List Nat := b.successors.map Text.ofDigits

/-- The numbers of the blocks that a method declares, in order. -/
def MethodTree.ids (t : MethodTree) : List Nat := t.blocks.map BlockTree.number

/-- The digits by which a clause refers to blocks. -/
def Clause.references : Clause → List Text
  | entry digits => [digits]
  | region r => r.body.leaves
  | handler _ r => (r.map fun r => r.body.leaves).getD []
  | _ => []

/-- The digits by which an item refers to blocks. -/
def Item.references : Item → List Text
  | block b => b.successors ++ b.instructions.flatMap fun i => i.elseTarget.toList
  | clause c => c.references

/-- The digits of the numbers that an item declares. -/
def Item.declaredDigits (i : Item) : List Text :=
  i.block?.toList.flatMap fun b => [b.id, b.offset]

@[simp] theorem mem_blocks {items : List Item} {b : BlockTree} :
    b ∈ items.filterMap Item.block? ↔ .block b ∈ items := by
  rw [List.mem_filterMap]
  constructor
  · rintro ⟨i, hi, same⟩
    cases i with
    | block _ =>
        cases same
        exact hi
    | clause _ => cases same
  · intro hb
    exact ⟨_, hb, rfl⟩

/-- When a method makes sense. -/
structure MethodTree.MakesSense (t : MethodTree) : Prop where
  /-- Its blocks have different numbers. -/
  ids_nodup : t.ids.Nodup
  /-- There is an opcode for each instruction, by its name in capitals or small letters. -/
  opcode_known : ∀ b ∈ t.blocks, ∀ i ∈ b.instructions, ∃ o : Opcode,
    o.name = i.opcode.map Char.toUpper
  /-- Each reference is to a block of the method. -/
  reference_declared : ∀ i ∈ t.items, ∀ d ∈ i.references, Text.ofDigits d ∈ t.ids
  /-- Only conditional branches have else targets. -/
  else_branch : ∀ b ∈ t.blocks, ∀ i ∈ b.instructions, i.elseTarget ≠ none →
    i.opcode.map Char.toUpper = Opcode.branch.name
  /-- Each else target is a successor of the block that the instruction is in. -/
  else_successor : ∀ b ∈ t.blocks, ∀ i ∈ b.instructions, ∀ d ∈ i.elseTarget,
    Text.ofDigits d ∈ b.successorNumbers
  /-- There is at most one root region. -/
  one_region : t.items.countP Item.isRegion ≤ 1
  /-- No number has too many digits. -/
  digits_short : ∀ i ∈ t.items, ∀ d ∈ i.declaredDigits ++ i.references, d.length ≤ digitLimit

/-! ## Rules -/

/-- A rule about one place of a method. -/
inductive Rule where
  /-- Some digits are few enough to be converted. -/
  | short (digits : Text)
  /-- There is an opcode of this name. -/
  | opcode (name : Text)
  /-- The number of a block is not that of one of the blocks before it. -/
  | unused (method : Text) (before : List Nat) (id : Nat)
  /-- A number is that of a block of the method. -/
  | declared (method : Text) (ids : List Nat) (id : Nat)
  /-- An instruction with an else target is a conditional branch.  A name without an opcode
  breaks a rule of its own. -/
  | branch (name : Text) (block : Nat)
  /-- An else target is a successor of the block. -/
  | successor (successors : List Nat) (target block : Nat)
  /-- No root region stands before this one. -/
  | firstRegion (method : Text) (before : Bool)
deriving DecidableEq, Repr

/-- The error of a rule, if it is broken. -/
def Rule.breach? : Rule → Option LoadError
  | short digits => if digits.length ≤ digitLimit then none else some (.tooManyDigits digits.length)
  | opcode name => if (Opcode.ofName? name).isSome then none else some (.unknownOpcode name)
  | unused method before id => if id ∉ before then none else some (.duplicateBlock id method)
  | declared method ids id => if id ∈ ids then none else some (.unknownBlock id method)
  | branch name block =>
      (Opcode.ofName? name).bind fun o =>
        if o = .branch then none else some (.elseWithoutBranch o block)
  | successor successors target block =>
      if target ∈ successors then none else some (.elseNotSuccessor target block)
  | firstRegion method before => if before then some (.secondRegion method) else none

/-- The rules for a reference. -/
def referenceRules (method : Text) (ids : List Nat) (digits : Text) : List Rule :=
  [.short digits, .declared method ids (Text.ofDigits digits)]

/-- The rules for declaring a block. -/
def BlockTree.declarationRules (method : Text) (before : List Nat) (b : BlockTree) : List Rule :=
  .short b.id :: .short b.offset :: (b.instructions.map fun i => .opcode i.opcode)
    ++ [.unused method before b.number]

/-- The rules for the else target of an instruction. -/
def InstructionTree.elseRules (method : Text) (ids : List Nat) (b : BlockTree)
    (i : InstructionTree) : List Rule :=
  match i.elseTarget with
  | none => []
  | some digits =>
      .branch i.opcode b.number :: referenceRules method ids digits
        ++ [.successor b.successorNumbers (Text.ofDigits digits) b.number]

/-- The rules for what a block refers to. -/
def BlockTree.linkRules (method : Text) (ids : List Nat) (b : BlockTree) : List Rule :=
  b.successors.flatMap (referenceRules method ids)
    ++ b.instructions.flatMap (InstructionTree.elseRules method ids b)

/-- The rules for what a clause refers to. -/
def Clause.linkRules (method : Text) (ids : List Nat) (rooted : Bool) (c : Clause) : List Rule :=
  (if c.isRegion then [.firstRegion method rooted] else [])
    ++ c.references.flatMap (referenceRules method ids)

/-- The rules for declaring blocks, given the numbers of those before. -/
def declarationRules (method : Text) : List Nat → List Item → List Rule
  | _, [] => []
  | before, .clause _ :: rest => declarationRules method before rest
  | before, .block b :: rest =>
      b.declarationRules method before ++ declarationRules method (before ++ [b.number]) rest

/-- The rules for what items refer to.  The flag says that a root region stands before them. -/
def linkRules (method : Text) (ids : List Nat) : Bool → List Item → List Rule
  | _, [] => []
  | rooted, .block b :: rest => b.linkRules method ids ++ linkRules method ids rooted rest
  | rooted, .clause c :: rest =>
      c.linkRules method ids rooted ++ linkRules method ids (rooted || c.isRegion) rest

/-- The rules for a method: first those for all its declarations, then those for what its
items refer to. -/
def MethodTree.rules (t : MethodTree) : List Rule :=
  declarationRules t.fullName [] t.items ++ linkRules t.fullName t.ids false t.items

/-! ## Keeping the rules -/

/-- Whether a rule is kept. -/
def Rule.Kept (r : Rule) : Prop := r.breach? = none

namespace Rule

@[simp] theorem kept_short {d : Text} : (short d).Kept ↔ d.length ≤ digitLimit := by
  simp [Kept, breach?]

@[simp] theorem kept_opcode {name : Text} :
    (opcode name).Kept ↔ ∃ o : Opcode, o.name = name.map Char.toUpper := by
  simp [Kept, breach?, Option.isSome_iff_exists, Opcode.ofName?_eq_some_iff]

@[simp] theorem kept_unused {method : Text} {before : List Nat} {id : Nat} :
    (unused method before id).Kept ↔ id ∉ before := by
  simp [Kept, breach?]

@[simp] theorem kept_declared {method : Text} {ids : List Nat} {id : Nat} :
    (declared method ids id).Kept ↔ id ∈ ids := by
  simp [Kept, breach?]

@[simp] theorem kept_branch {name : Text} {block : Nat} :
    (branch name block).Kept ↔ ∀ o : Opcode, o.name = name.map Char.toUpper → o = .branch := by
  simp [Kept, breach?, Option.bind_eq_none_iff, Opcode.ofName?_eq_some_iff]

@[simp] theorem kept_successor {successors : List Nat} {target block : Nat} :
    (successor successors target block).Kept ↔ target ∈ successors := by
  simp [Kept, breach?]

@[simp] theorem kept_firstRegion {method : Text} {before : Bool} :
    (firstRegion method before).Kept ↔ before = false := by
  simp [Kept, breach?]

end Rule

/-- The rules for declaring blocks are about each block on its own, except that the numbers
have to differ. -/
theorem kept_declarationRules {method : Text} {before : List Nat} {items : List Item}
    (hbefore : before.Nodup) :
    (∀ r ∈ declarationRules method before items, r.Kept) ↔
      (before ++ (items.filterMap Item.block?).map BlockTree.number).Nodup ∧
      ∀ b ∈ items.filterMap Item.block?, b.id.length ≤ digitLimit ∧ b.offset.length ≤ digitLimit ∧
        ∀ i ∈ b.instructions, ∃ o : Opcode, o.name = i.opcode.map Char.toUpper := by
  induction items generalizing before with
  | nil => simpa [declarationRules] using hbefore
  | cons item items ih =>
      cases item with
      | clause c =>
          rw [declarationRules, ih hbefore]
          rfl
      | block b =>
          have own : (∀ r ∈ b.declarationRules method before, r.Kept) ↔
              b.number ∉ before ∧ b.id.length ≤ digitLimit ∧ b.offset.length ≤ digitLimit ∧
                ∀ i ∈ b.instructions, ∃ o : Opcode, o.name = i.opcode.map Char.toUpper := by
            simp only [BlockTree.declarationRules, List.forall_mem_append, List.forall_mem_cons,
              List.forall_mem_map, Rule.kept_short, Rule.kept_opcode, Rule.kept_unused]
            tauto
          have fresh : (before ++ [b.number]).Nodup ↔ b.number ∉ before := by
            rw [List.perm_append_comm.nodup_iff]
            simp [hbefore]
          have blocks : (Item.block b :: items).filterMap Item.block?
              = b :: items.filterMap Item.block? := rfl
          have split : before ++ (b :: items.filterMap Item.block?).map BlockTree.number
              = (before ++ [b.number]) ++ (items.filterMap Item.block?).map BlockTree.number := by
            simp
          rw [declarationRules, List.forall_mem_append, own, blocks, List.forall_mem_cons, split]
          constructor
          · rintro ⟨⟨new, self⟩, rest⟩
            obtain ⟨nodup, others⟩ := (ih (fresh.2 new)).1 rest
            exact ⟨nodup, self, others⟩
          · rintro ⟨nodup, self, others⟩
            have front := (List.nodup_append.1 nodup).1
            exact ⟨⟨fresh.1 front, self⟩, (ih front).2 ⟨nodup, others⟩⟩

theorem kept_referenceRules {method : Text} {ids : List Nat} {d : Text} :
    (∀ r ∈ referenceRules method ids d, r.Kept) ↔
      d.length ≤ digitLimit ∧ Text.ofDigits d ∈ ids := by
  simp [referenceRules]

/-- When what an item refers to makes sense. -/
structure Item.LinksMakeSense (ids : List Nat) (item : Item) : Prop where
  /-- Its references are short and to declared blocks. -/
  reference : ∀ d ∈ item.references, d.length ≤ digitLimit ∧ Text.ofDigits d ∈ ids
  /-- Its else targets stand on conditional branches. -/
  else_branch : ∀ b ∈ item.block?, ∀ i ∈ b.instructions, i.elseTarget ≠ none →
    ∀ o : Opcode, o.name = i.opcode.map Char.toUpper → o = .branch
  /-- Its else targets are successors of their blocks. -/
  else_successor : ∀ b ∈ item.block?, ∀ i ∈ b.instructions, ∀ d ∈ i.elseTarget,
    Text.ofDigits d ∈ b.successorNumbers

theorem kept_elseRules {method : Text} {ids : List Nat} {b : BlockTree} {i : InstructionTree} :
    (∀ r ∈ i.elseRules method ids b, r.Kept) ↔ ∀ d ∈ i.elseTarget,
      (∀ o : Opcode, o.name = i.opcode.map Char.toUpper → o = .branch) ∧
      (d.length ≤ digitLimit ∧ Text.ofDigits d ∈ ids) ∧ Text.ofDigits d ∈ b.successorNumbers := by
  unfold InstructionTree.elseRules
  cases i.elseTarget with
  | none => simp
  | some digits =>
      simp only [List.forall_mem_append, List.forall_mem_cons, kept_referenceRules,
        Rule.kept_branch, Rule.kept_successor]
      simp [and_assoc]

theorem kept_blockLinkRules {method : Text} {ids : List Nat} {b : BlockTree} :
    (∀ r ∈ b.linkRules method ids, r.Kept) ↔ (Item.block b).LinksMakeSense ids := by
  simp only [BlockTree.linkRules, List.forall_mem_append, List.forall_mem_flatMap,
    kept_referenceRules, kept_elseRules]
  constructor
  · rintro ⟨successors, elses⟩
    refine ⟨List.forall_mem_append.2 ⟨successors, ?_⟩, ?_, ?_⟩
    · rw [List.forall_mem_flatMap]
      intro i hi d hd
      exact (elses i hi d (Option.mem_toList.1 hd)).2.1
    · rintro _ ⟨⟩ i hi target
      obtain ⟨d, hd⟩ := Option.ne_none_iff_exists'.1 target
      exact (elses i hi d hd).1
    · rintro _ ⟨⟩ i hi d hd
      exact (elses i hi d hd).2.2
  · rintro ⟨reference, branch, successor⟩
    obtain ⟨successors, elses⟩ := List.forall_mem_append.1 reference
    rw [List.forall_mem_flatMap] at elses
    refine ⟨successors, fun i hi d hd => ⟨?_, ?_, ?_⟩⟩
    · exact branch b rfl i hi (Option.ne_none_iff_exists'.2 ⟨d, hd⟩)
    · exact elses i hi d (Option.mem_toList.2 hd)
    · exact successor b rfl i hi d hd

theorem kept_clauseLinkRules {method : Text} {ids : List Nat} {rooted : Bool} {c : Clause} :
    (∀ r ∈ c.linkRules method ids rooted, r.Kept) ↔
      (Item.clause c).LinksMakeSense ids ∧ ¬(rooted = true ∧ c.isRegion = true) := by
  have first : (∀ r ∈ if c.isRegion then [Rule.firstRegion method rooted] else [], r.Kept) ↔
      ¬(rooted = true ∧ c.isRegion = true) := by
    cases c.isRegion <;> simp
  rw [Clause.linkRules, List.forall_mem_append, first, List.forall_mem_flatMap, and_comm]
  simp only [kept_referenceRules]
  refine and_congr_left fun _ => ⟨fun h => ⟨h, ?_, ?_⟩, fun h => h.reference⟩
  · rintro _ ⟨⟩
  · rintro _ ⟨⟩

/-- The rules for what items refer to are about each item on its own, except that there has
to be at most one root region. -/
theorem kept_linkRules {method : Text} {ids : List Nat} {rooted : Bool} {items : List Item} :
    (∀ r ∈ linkRules method ids rooted items, r.Kept) ↔
      (∀ i ∈ items, i.LinksMakeSense ids) ∧ rooted.toNat + items.countP Item.isRegion ≤ 1 := by
  induction items generalizing rooted with
  | nil =>
      have := rooted.toNat_le
      simpa [linkRules] using this
  | cons item items ih =>
      cases item with
      | block b =>
          rw [linkRules, List.forall_mem_append, kept_blockLinkRules, ih, List.forall_mem_cons,
            List.countP_cons_of_neg (by simp [Item.isRegion]), and_assoc]
      | clause c =>
          rw [linkRules, List.forall_mem_append, kept_clauseLinkRules, ih, List.forall_mem_cons]
          have count : (Item.clause c :: items).countP Item.isRegion
              = c.isRegion.toNat + items.countP Item.isRegion := by
            rw [List.countP_cons, Nat.add_comm]
            cases hc : c.isRegion <;> simp [Item.isRegion, hc]
          have one : (¬(rooted = true ∧ c.isRegion = true) ∧
              (rooted || c.isRegion).toNat + items.countP Item.isRegion ≤ 1) ↔
              rooted.toNat + (c.isRegion.toNat + items.countP Item.isRegion) ≤ 1 := by
            cases rooted <;> cases c.isRegion <;> simp only [Bool.toNat_true, Bool.toNat_false,
              Bool.or_true, Bool.or_false, Bool.false_eq_true, and_true, and_false, false_and,
              true_and, false_iff, eq_self, not_true_eq_false, not_false_eq_true] <;> omega
          rw [count, ← one]
          tauto

/-- A method makes sense exactly if it breaks no rule. -/
theorem makesSense_iff {t : MethodTree} : t.MakesSense ↔ ∀ r ∈ t.rules, r.Kept := by
  rw [MethodTree.rules, List.forall_mem_append, kept_declarationRules List.nodup_nil,
    kept_linkRules]
  simp only [List.nil_append, Bool.toNat_false, Nat.zero_add]
  constructor
  · intro sense
    refine ⟨⟨sense.ids_nodup, fun b hb => ⟨?_, ?_, sense.opcode_known b hb⟩⟩,
      fun i hi => ⟨fun d hd => ⟨?_, sense.reference_declared i hi d hd⟩, ?_, ?_⟩, sense.one_region⟩
    · exact sense.digits_short _ (mem_blocks.1 hb) _ (by simp [Item.declaredDigits, Item.block?])
    · exact sense.digits_short _ (mem_blocks.1 hb) _ (by simp [Item.declaredDigits, Item.block?])
    · exact sense.digits_short i hi d (List.mem_append_right _ hd)
    · intro b hb j hj target o name
      have same := name.trans (sense.else_branch b (List.mem_filterMap.2 ⟨i, hi, hb⟩) j hj target)
      exact Opcode.name_injective same
    · intro b hb
      exact sense.else_successor b (List.mem_filterMap.2 ⟨i, hi, hb⟩)
  · rintro ⟨⟨nodup, declared⟩, linked, one⟩
    exact {
      ids_nodup := nodup
      opcode_known := fun b hb => (declared b hb).2.2
      reference_declared := fun i hi d hd => ((linked i hi).reference d hd).2
      else_branch := by
        intro b hb j hj target
        obtain ⟨o, name⟩ := (declared b hb).2.2 j hj
        rw [← name, (linked _ (mem_blocks.1 hb)).else_branch b rfl j hj target o name]
      else_successor := fun b hb => (linked _ (mem_blocks.1 hb)).else_successor b rfl
      one_region := one
      digits_short := by
        intro i hi
        refine List.forall_mem_append.2 ⟨?_, fun d hd => ((linked i hi).reference d hd).1⟩
        cases i with
        | block b =>
            obtain ⟨id, offset, -⟩ := declared b (mem_blocks.2 hi)
            simp [Item.declaredDigits, Item.block?, id, offset]
        | clause c => simp [Item.declaredDigits, Item.block?] }

end Listing

end FlowGraph
