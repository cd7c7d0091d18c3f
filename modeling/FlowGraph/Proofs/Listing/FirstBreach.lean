import FlowGraph.Proofs.Listing.Rules

/-!
# The first broken rule is reported

`Heeds x rules` says that a step of loading fails exactly if one of the rules is broken, and
with the error of the first that is.  It is compositional: a sequence of steps heeds the
rules of the steps one after another (`Heeds.bind`, `Heeds.collect`).  So each step has one
lemma, and `parse_first_breach` is the lemma of the whole.
-/

namespace FlowGraph.Listing

/-! ## Steps and their rules -/

/-- Whether a step fails just as the first broken rule says. -/
def Heeds {α : Type} (x : Except LoadError α) (rules : List Rule) : Prop :=
  rules.findSome? Rule.breach? = failure? x

namespace Heeds

variable {α β : Type} {x : Except LoadError α} {f : α → Except LoadError β} {rs qs : List Rule}

theorem ok (a : α) : Heeds (.ok a) [] := rfl

theorem bind (hx : Heeds x rs) (hf : ∀ a, x = .ok a → Heeds (f a) qs) :
    Heeds (x >>= f) (rs ++ qs) := by
  unfold Heeds at hx ⊢
  rw [List.findSome?_append, hx]
  cases x with
  | error e => rfl
  | ok a => exact hf a rfl

/-- A step with nothing to heed after it. -/
theorem bind_ok {g : α → β} (hx : Heeds x rs) : Heeds (x >>= fun a => .ok (g a)) rs := by
  rw [← List.append_nil rs]
  exact hx.bind fun a _ => ok (g a)

theorem collect {g : α → Except LoadError β} {r : α → List Rule} {as : List α}
    (each : ∀ a ∈ as, Heeds (g a) (r a)) : Heeds (Listing.collect g as) (as.flatMap r) := by
  induction as with
  | nil => exact ok []
  | cons a as ih =>
      obtain ⟨first, others⟩ := List.forall_mem_cons.1 each
      exact first.bind fun b _ => (ih others).bind_ok

theorem eq_error_iff (h : Heeds x rs) {e : LoadError} :
    x = .error e ↔ rs.findSome? Rule.breach? = some e := by
  rw [h]
  cases x <;> simp [failure?]

theorem eq_ok_iff (h : Heeds x rs) : (∃ a, x = .ok a) ↔ ∀ r ∈ rs, r.Kept := by
  have kept : (∀ r ∈ rs, r.Kept) ↔ rs.findSome? Rule.breach? = none :=
    List.findSome?_eq_none_iff.symm
  rw [kept, h]
  cases x <;> simp [failure?]

theorem broken {r : Rule} {e : LoadError} (h : r.breach? = some e) :
    Heeds (.error e : Except LoadError α) (r :: rs) := by
  unfold Heeds
  rw [List.findSome?_cons, h]
  rfl

theorem kept {r : Rule} (h : r.Kept) (hx : Heeds x rs) : Heeds x (r :: rs) := by
  unfold Heeds
  rw [List.findSome?_cons, h]
  exact hx

/-- A step that gives a result or breaks the one rule that it has to heed. -/
theorem of_rule {r : Rule} {p : Prop} [Decidable p] {a : α} {e : LoadError} (kept : p → r.Kept)
    (broken : ¬p → r.breach? = some e) : Heeds (if p then .ok a else .error e) [r] := by
  by_cases h : p
  · rw [if_pos h]
    exact .kept (kept h) (.ok a)
  · rw [if_neg h]
    exact .broken (broken h)

end Heeds

/-! ## Declaring the blocks -/

theorem heeds_number (digits : Text) : Heeds (number digits) [.short digits] := by
  unfold number
  by_cases long : digits.length > digitLimit
  · rw [if_pos long]
    exact .broken (if_neg (Nat.not_le.2 long))
  · rw [if_neg long]
    exact .kept (if_pos (Nat.not_lt.1 long)) (.ok _)

theorem eq_ofDigits_of_number {digits : Text} {n : Nat} (h : number digits = .ok n) :
    n = Text.ofDigits digits := (number_eq_ok_iff.1 h).2.symm

theorem InstructionTree.heeds_declare (i : InstructionTree) :
    Heeds i.declare [.opcode i.opcode] := by
  unfold declare
  cases found : Opcode.ofName? i.opcode with
  | none => exact .broken (by simp [Rule.breach?, found])
  | some o => exact .kept (by simp [Rule.Kept, Rule.breach?, found]) (.ok _)

theorem InstructionTree.ofName?_of_declare {tree : InstructionTree} {i : Instruction}
    (h : tree.declare = .ok i) : Opcode.ofName? tree.opcode = some i.opcode := by
  unfold declare at h
  split at h
  · next o found =>
      cases h
      exact found
  · cases h

theorem BlockTree.heeds_declare (b : BlockTree) :
    Heeds b.declare
      (.short b.id :: .short b.offset :: b.instructions.map fun i => .opcode i.opcode) := by
  have instructions : Heeds (collect InstructionTree.declare b.instructions)
      (b.instructions.map fun i => .opcode i.opcode) := by
    rw [List.map_eq_flatMap]
    exact .collect fun i _ => i.heeds_declare
  exact (heeds_number b.id).bind fun _ _ => (heeds_number b.offset).bind fun _ _ =>
    instructions.bind_ok

theorem BlockTree.number_of_declare {tree : BlockTree} {b : Block} (h : tree.declare = .ok b) :
    b.id = tree.number := by
  obtain ⟨id, offset, is, hid, -, -, rfl⟩ := declare_eq_ok_iff.1 h
  rw [eq_ofDigits_of_number hid]
  rfl

/-- Declaring the blocks among some items. -/
theorem heeds_declareItems (method : Text) (before : List Nat) (items : List Item) :
    Heeds (declareItems method (before.map Nat.cast) items)
      (declarationRules method before items) := by
  induction items generalizing before with
  | nil => exact .ok []
  | cons item items ih =>
      cases item with
      | clause c => exact (ih before).bind_ok
      | block tree =>
          rw [declarationRules, BlockTree.declarationRules, List.append_assoc]
          refine tree.heeds_declare.bind fun b declared => ?_
          rw [BlockTree.number_of_declare declared]
          have mem : (tree.number : Int) ∈ before.map Nat.cast ↔ tree.number ∈ before :=
            List.mem_map_of_injective fun _ _ => Int.natCast_inj.1
          by_cases used : tree.number ∈ before
          · rw [if_pos (mem.2 used)]
            exact .broken (by simp [Rule.breach?, used])
          · rw [if_neg (mt mem.1 used)]
            have rest := ih (before ++ [tree.number])
            rw [List.map_append] at rest
            exact .kept (Rule.kept_unused.2 used) rest.bind_ok

/-- The first pass gives the scope of the second. -/
theorem ids_of_declares {items : List Item} {ds : List Declaration}
    (h : List.Forall₂ Declares items ds) :
    ds.filterMap Declaration.id?
      = ((items.filterMap Item.block?).map BlockTree.number).map Nat.cast := by
  induction h with
  | nil => rfl
  | @cons item d items ds hd _ ih =>
      cases item with
      | block tree =>
          obtain ⟨b, declared, rfl⟩ := hd
          have head : Declaration.id? (.block b tree) = some (tree.number : Int) :=
            congrArg some (BlockTree.number_of_declare declared)
          rw [List.filterMap_cons_some head, ih]
          rfl
      | clause c =>
          cases hd
          exact ih

/-! ## Resolving references -/

/-- The scope of a method whose blocks have these numbers. -/
def Scope.ofNumbers (method : Text) (ids : List Nat) : Scope := ⟨method, ids.map Nat.cast⟩

section

variable {method : Text} {ids : List Nat}

theorem findIdx?_cast (n : Nat) :
    (ids.map Nat.cast).findIdx? (· = (n : Int)) = ids.findIdx? (· = n) := by
  simp only [List.findIdx?_map, Function.comp_def, Int.natCast_inj]

theorem find_eq_ok_iff {digits : Text} {i : Nat} :
    (Scope.ofNumbers method ids).find digits = .ok i ↔
      digits.length ≤ digitLimit ∧ ids.findIdx? (· = Text.ofDigits digits) = some i := by
  rw [Scope.find_eq_ok_iff]
  simp only [Scope.ofNumbers, number_eq_ok_iff, findIdx?_cast]
  constructor
  · rintro ⟨_, ⟨short, rfl⟩, found⟩
    exact ⟨short, found⟩
  · rintro ⟨short, found⟩
    exact ⟨_, ⟨short, rfl⟩, found⟩

theorem getElem?_of_find {digits : Text} {i : Nat}
    (h : (Scope.ofNumbers method ids).find digits = .ok i) : ids[i]? = some (Text.ofDigits digits) := by
  obtain ⟨-, found⟩ := find_eq_ok_iff.1 h
  obtain ⟨lt, here, -⟩ := List.findIdx?_eq_some_iff_getElem.1 found
  rw [List.getElem?_eq_getElem lt, of_decide_eq_true here]

/-- References are to one block if their numbers are the same. -/
theorem find_eq_iff {d e : Text} {i j : Nat} (hi : (Scope.ofNumbers method ids).find d = .ok i)
    (hj : (Scope.ofNumbers method ids).find e = .ok j) :
    i = j ↔ Text.ofDigits d = Text.ofDigits e := by
  constructor
  · rintro rfl
    exact Option.some.inj ((getElem?_of_find hi).symm.trans (getElem?_of_find hj))
  · intro same
    have found := (find_eq_ok_iff.1 hi).2
    rw [same, (find_eq_ok_iff.1 hj).2] at found
    exact (Option.some.inj found).symm

theorem heeds_find (digits : Text) :
    Heeds ((Scope.ofNumbers method ids).find digits) (referenceRules method ids digits) := by
  refine (heeds_number digits).bind fun n converted => ?_
  cases eq_ofDigits_of_number converted
  dsimp only [Scope.ofNumbers]
  rw [findIdx?_cast]
  cases found : ids.findIdx? (· = Text.ofDigits digits) with
  | none =>
      have missing : Text.ofDigits digits ∉ ids := by
        intro mem
        simpa using List.findIdx?_eq_none_iff.1 found _ mem
      exact .broken (if_neg missing)
  | some i =>
      obtain ⟨lt, here, -⟩ := List.findIdx?_eq_some_iff_getElem.1 found
      have mem : Text.ofDigits digits ∈ ids := by
        rw [← of_decide_eq_true here]
        exact List.getElem_mem lt
      exact .kept (Rule.kept_declared.2 mem) (.ok i)

/-- Among some references there is one to a block if there is one with its number. -/
theorem mem_found_iff {ts : List Text} {is : List Nat} {digits : Text} {target : Nat}
    (h : List.Forall₂ (fun t i => (Scope.ofNumbers method ids).find t = .ok i) ts is)
    (found : (Scope.ofNumbers method ids).find digits = .ok target) :
    target ∈ is ↔ Text.ofDigits digits ∈ ts.map Text.ofDigits := by
  induction h with
  | nil => simp
  | cons hi _ ih => rw [List.map_cons, List.mem_cons, List.mem_cons, find_eq_iff found hi, ih]

/-- The else target of an instruction of a block whose successors are resolved. -/
theorem heeds_linkInstruction {b : Block} {block : BlockTree} {i : Instruction}
    {tree : InstructionTree} (declared : tree.declare = .ok i) (id : b.id = block.number)
    (successors : List.Forall₂ (fun t d => (Scope.ofNumbers method ids).find t = .ok d)
      block.successors b.successors) :
    Heeds ((Scope.ofNumbers method ids).linkInstruction b i tree)
      (tree.elseRules method ids block) := by
  have opcode := InstructionTree.ofName?_of_declare declared
  unfold Scope.linkInstruction InstructionTree.elseRules
  cases tree.elseTarget with
  | none => exact .ok i
  | some digits =>
      by_cases branch : i.opcode = .branch
      · dsimp only
        rw [if_neg (not_not_intro branch), List.cons_append]
        refine .kept (by simp [Rule.Kept, Rule.breach?, opcode, branch]) ?_
        refine (heeds_find digits).bind fun target found => ?_
        have mem : target ∈ b.successors ↔ Text.ofDigits digits ∈ block.successorNumbers :=
          mem_found_iff successors found
        have value : (Scope.ofNumbers method ids).ids.getD target 0
            = (Text.ofDigits digits : Int) := by
          simp [Scope.ofNumbers, List.getD_eq_getElem?_getD, getElem?_of_find found]
        rw [value, id]
        exact .of_rule (fun h => Rule.kept_successor.2 (mem.1 h)) fun h => if_neg (mt mem.2 h)
      · dsimp only
        rw [if_pos branch, id]
        exact .broken (by simp [Rule.breach?, opcode, branch])

theorem heeds_linkBlock {b : Block} {tree : BlockTree} (declared : tree.declare = .ok b) :
    Heeds ((Scope.ofNumbers method ids).linkBlock b tree) (tree.linkRules method ids) := by
  have id := BlockTree.number_of_declare declared
  obtain ⟨_, _, is, -, -, his, rfl⟩ := BlockTree.declare_eq_ok_iff.1 declared
  have successors : Heeds (collect (Scope.ofNumbers method ids).find tree.successors)
      (tree.successors.flatMap (referenceRules method ids)) := .collect fun d _ => heeds_find d
  refine successors.bind fun ds found => ?_
  -- The second pass takes the instructions in pairs, each with the tree it was declared from.
  have length : tree.instructions.length ≤ is.length := Nat.le_of_eq his.length_eq
  have pairs : (is.zip tree.instructions).flatMap
        (fun p => InstructionTree.elseRules method ids tree p.2)
      = tree.instructions.flatMap (InstructionTree.elseRules method ids tree) := by
    conv_rhs => rw [← List.map_snd_zip length, List.flatMap_map]
  rw [← pairs]
  refine Heeds.bind_ok (.collect fun p hp => ?_)
  have each : p.2.declare = .ok p.1 := (List.forall₂_iff_zip.1 his.flip).2 hp
  exact heeds_linkInstruction each id (collect_eq_ok_iff.1 found)

theorem heeds_forest (tree : RegionItems) :
    Heeds ((Scope.ofNumbers method ids).forest tree)
      (tree.leaves.flatMap (referenceRules method ids)) := by
  induction tree with
  | nil => exact .ok _
  | leaf digits rest ih => exact (heeds_find digits).bind fun _ _ => ih.bind_ok
  | node line body rest ihBody ihRest =>
      rw [Forest.leaves, List.flatMap_append]
      exact ihBody.bind fun _ _ => ihRest.bind_ok

theorem heeds_region (tree : RegionTree) :
    Heeds ((Scope.ofNumbers method ids).region tree)
      (tree.body.leaves.flatMap (referenceRules method ids)) :=
  (heeds_forest tree.body).bind_ok

theorem heeds_clause (c : Clause) :
    Heeds ((Scope.ofNumbers method ids).clause c)
      (c.references.flatMap (referenceRules method ids)) := by
  cases c with
  | entry digits =>
      have rules : (Clause.entry digits).references.flatMap (referenceRules method ids)
          = referenceRules method ids digits := by
        simp [Clause.references]
      rw [rules]
      exact (heeds_find digits).bind_ok
  | region tree => exact (heeds_region tree).bind_ok
  | handler catchType tree =>
      cases tree with
      | none => exact .ok _
      | some tree => exact (heeds_region tree).bind_ok.bind_ok
  | _ => exact .ok _

/-- Resolving the declarations of some items. -/
theorem heeds_resolve {rooted : Bool} {items : List Item} {ds : List Declaration}
    (declares : List.Forall₂ Declares items ds) :
    Heeds ((Scope.ofNumbers method ids).resolve rooted ds)
      (linkRules method ids rooted items) := by
  induction declares generalizing rooted with
  | nil => exact .ok []
  | @cons item d items ds hd _ ih =>
      cases item with
      | block tree =>
          obtain ⟨b, declared, rfl⟩ := hd
          exact (heeds_linkBlock declared).bind fun _ _ => ih.bind_ok
      | clause c =>
          cases hd
          rw [linkRules, Clause.linkRules, List.append_assoc, Scope.resolve]
          have rest : Heeds (do
              let r ← (Scope.ofNumbers method ids).clause c
              let rs ← (Scope.ofNumbers method ids).resolve (rooted || c.isRegion) ds
              .ok (r :: rs))
              (c.references.flatMap (referenceRules method ids)
                ++ linkRules method ids (rooted || c.isRegion) items) :=
            (heeds_clause c).bind fun _ _ => ih.bind_ok
          generalize c.isRegion = root at rest ⊢
          cases root with
          | false => simpa using rest
          | true =>
              cases rooted with
              | false => exact .kept rfl rest
              | true => exact .broken rfl

end

/-! ## The whole listing -/

theorem MethodTree.heeds_load (t : MethodTree) : Heeds t.load t.rules := by
  refine (heeds_declareItems t.fullName [] t.items).bind fun ds declared => ?_
  have declares := ((declareItems_eq_ok_iff List.nodup_nil).1 declared).1
  have scope : (⟨t.fullName, ds.filterMap Declaration.id?⟩ : Scope)
      = .ofNumbers t.fullName t.ids := congrArg _ (ids_of_declares declares)
  show Heeds (Scope.resolve ⟨t.fullName, ds.filterMap Declaration.id?⟩ false ds >>= _) _
  rw [scope]
  exact (heeds_resolve declares).bind_ok

theorem heeds_load (trees : List MethodTree) : Heeds (load trees) (trees.flatMap MethodTree.rules) :=
  .collect fun t _ => t.heeds_load

/-- A listing that is syntactically correct gives its methods just if all of them make
sense, and fails just with the error of the first rule that is broken. -/
theorem parse_first_breach {text : Text} {trees : List MethodTree} (h : read text = .ok trees) :
    ((∃ ms, parse text = .ok ms) ↔ ∀ t ∈ trees, t.MakesSense) ∧
    ∀ e, parse text = .error e ↔ ∃ e', e = .senseless e' ∧
      (trees.flatMap MethodTree.rules).findSome? Rule.breach? = some e' := by
  have heeds := heeds_load trees
  have sense : (∀ t ∈ trees, t.MakesSense) ↔ ∃ ms, load trees = .ok ms := by
    rw [heeds.eq_ok_iff, List.forall_mem_flatMap]
    exact forall₂_congr fun t _ => makesSense_iff
  unfold parse
  rw [h, sense]
  simp only [← heeds.eq_error_iff]
  cases load trees with
  | ok ms => simp
  | error e => simp [eq_comm]

/-- A listing with a method that makes sense, and one that breaks four rules: an else target
on an instruction that does not branch, which is no block of the method either, and a second
root region, which holds a block that the method lacks. -/
def faultyListing : Text := Text.unlines
  [lit "method \"p.A\" \"f()V\" \x7b entry 02 block 2 @ 0 \x7b insn Return \"\" \x7d \x7d",
   lit "method \"p.A\" \"g()V\" \x7b region R \"\" \x7b block 1 \x7d",
   lit "block 1 @ 0 -> 1 \x7b insn goto \"\" else 9 \x7d region S \"\" \x7b block 7 \x7d \x7d"]

theorem faultyListing_first_breach :
    (∃ trees, read faultyListing = .ok trees ∧ ¬ ∀ t ∈ trees, t.MakesSense) ∧
    parse faultyListing = .error (.senseless (.elseWithoutBranch .goto 1)) := by
  have listing : ((read faultyListing).toOption.map fun trees =>
      (trees.flatMap MethodTree.rules).findSome? Rule.breach?)
        = some (some (.elseWithoutBranch .goto 1)) := by decide +kernel
  obtain ⟨trees, some, breach⟩ := Option.map_eq_some_iff.1 listing
  have h := eq_ok_of_toOption some
  obtain ⟨sense, first⟩ := parse_first_breach h
  have fails := (first _).2 ⟨_, rfl, breach⟩
  refine ⟨⟨trees, h, fun all => ?_⟩, fails⟩
  obtain ⟨ms, parsed⟩ := sense.2 all
  rw [fails] at parsed
  cases parsed

end FlowGraph.Listing
