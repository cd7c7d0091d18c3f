import FlowGraph.Listing.Read
import Mathlib.Data.List.Forall2

/-!
# What loading a method does

One lemma for each step of loading says exactly when the step gives a result and which.
The two passes over the items are relations between lists, `List.Forall₂`, so an item is
looked at on its own: `declareItems_eq_ok_iff` for the first pass and `Scope.resolve_eq_ok_iff`
for the second.
-/

namespace FlowGraph.Listing

/-! ## Sequences of steps -/

theorem bind_eq_ok_iff {α β : Type} {x : Except LoadError α} {f : α → Except LoadError β} {b : β} :
    (x >>= f) = .ok b ↔ ∃ a, x = .ok a ∧ f a = .ok b := by
  cases x with
  | error e =>
      constructor
      · intro h
        cases h
      · rintro ⟨a, h, -⟩
        cases h
  | ok a =>
      constructor
      · intro h
        exact ⟨a, rfl, h⟩
      · rintro ⟨a, ⟨⟩, h⟩
        exact h

theorem eq_ok_of_toOption {ε α : Type} {x : Except ε α} {a : α} (h : x.toOption = some a) :
    x = .ok a := by
  cases x with
  | error e => cases h
  | ok b =>
      cases h
      rfl

/-- The error of a step that fails. -/
def failure? {ε α : Type} : Except ε α → Option ε
  | .ok _ => none
  | .error e => some e

theorem eq_error_of_failure? {ε α : Type} {x : Except ε α} {e : ε} (h : failure? x = some e) :
    x = .error e := by
  cases x with
  | error e' =>
      cases h
      rfl
  | ok a => cases h

/-- A list is collected if every element gives a value. -/
theorem collect_eq_ok_iff {α β : Type} {f : α → Except LoadError β} {as : List α} {bs : List β} :
    collect f as = .ok bs ↔ List.Forall₂ (fun a b => f a = .ok b) as bs := by
  induction as generalizing bs with
  | nil =>
      constructor
      · rintro ⟨⟩
        exact .nil
      · rintro ⟨⟩
        rfl
  | cons a as ih =>
      simp only [collect, bind_eq_ok_iff, ih]
      constructor
      · rintro ⟨b, hb, bs, hbs, ⟨⟩⟩
        exact .cons hb hbs
      · rintro (_ | ⟨hb, hbs⟩)
        exact ⟨_, hb, _, hbs, rfl⟩

theorem exists_of_mem_right {α β : Type} {R : α → β → Prop} {as : List α} {bs : List β}
    (h : List.Forall₂ R as bs) {b : β} (hb : b ∈ bs) : ∃ a ∈ as, R a b := by
  induction h with
  | nil => cases hb
  | cons hab _ ih =>
      rcases List.mem_cons.1 hb with rfl | hb
      · exact ⟨_, List.mem_cons_self, hab⟩
      · obtain ⟨a, ha, related⟩ := ih hb
        exact ⟨a, List.mem_cons_of_mem _ ha, related⟩

/-! ## Numbers and references -/

theorem number_eq_ok_iff {digits : Text} {n : Nat} :
    number digits = .ok n ↔ digits.length ≤ digitLimit ∧ Text.ofDigits digits = n := by
  unfold number
  split
  · next h =>
      constructor
      · intro eq
        cases eq
      · rintro ⟨short, -⟩
        omega
  · next h =>
      constructor
      · rintro ⟨⟩
        exact ⟨by omega, rfl⟩
      · rintro ⟨-, rfl⟩
        rfl

theorem Scope.find_eq_ok_iff {s : Scope} {digits : Text} {i : Nat} :
    s.find digits = .ok i ↔
      ∃ n : Nat, number digits = .ok n ∧ s.ids.findIdx? (· = (n : Int)) = some i := by
  unfold find
  rw [bind_eq_ok_iff]
  refine exists_congr fun n => and_congr_right fun _ => ?_
  split
  · next j found =>
      constructor
      · rintro ⟨⟩
        exact found
      · intro h
        rw [found] at h
        cases h
        rfl
  · next missing =>
      constructor
      · intro h
        cases h
      · intro h
        rw [missing] at h
        cases h

theorem Scope.lt_of_find {s : Scope} {digits : Text} {i : Nat} (h : s.find digits = .ok i) :
    i < s.ids.length := by
  obtain ⟨n, -, found⟩ := find_eq_ok_iff.1 h
  exact (List.findIdx?_eq_some_iff_findIdx_eq.1 found).1

/-! ## Declaring the blocks -/

theorem BlockTree.declare_eq_ok_iff {tree : BlockTree} {b : Block} :
    tree.declare = .ok b ↔ ∃ id offset is, number tree.id = .ok id ∧
      number tree.offset = .ok offset ∧
      List.Forall₂ (fun t i => InstructionTree.declare t = .ok i) tree.instructions is ∧
      b = { id := id, offset := offset, attributes := texts tree.attributes,
            instructions := is } := by
  simp only [declare, bind_eq_ok_iff, collect_eq_ok_iff, Except.ok.injEq, eq_comm (b := b)]
  constructor
  · rintro ⟨id, hid, offset, hoffset, is, his, rfl⟩
    exact ⟨id, offset, is, hid, hoffset, his, rfl⟩
  · rintro ⟨id, offset, is, hid, hoffset, his, rfl⟩
    exact ⟨id, hid, offset, hoffset, is, his, rfl⟩

/-- Whether a declaration is what the first pass makes of an item. -/
def Declares : Item → Declaration → Prop
  | .block tree, d => ∃ b, tree.declare = .ok b ∧ d = .block b tree
  | .clause c, d => d = .clause c

/-- The first pass looks at each item on its own, except that the numbers of the blocks
have to differ. -/
theorem declareItems_eq_ok_iff {method : Text} {ids : List Int} {items : List Item}
    {ds : List Declaration} (hids : ids.Nodup) :
    declareItems method ids items = .ok ds ↔
      List.Forall₂ Declares items ds ∧ (ids ++ ds.filterMap Declaration.id?).Nodup := by
  induction items generalizing ids ds with
  | nil =>
      constructor
      · rintro ⟨⟩
        exact ⟨.nil, by simpa using hids⟩
      · rintro ⟨⟨⟩, -⟩
        rfl
  | cons item items ih =>
      cases item with
      | clause c =>
          simp only [declareItems, bind_eq_ok_iff, ih hids]
          constructor
          · rintro ⟨ds, ⟨each, nodup⟩, ⟨⟩⟩
            exact ⟨.cons rfl each, nodup⟩
          · rintro ⟨_ | ⟨rfl, each⟩, nodup⟩
            exact ⟨_, ⟨each, nodup⟩, rfl⟩
      | block tree =>
          rw [declareItems, bind_eq_ok_iff]
          constructor
          · rintro ⟨b, declared, h⟩
            split at h
            · cases h
            · next fresh =>
                obtain ⟨ds, rest, ⟨⟩⟩ := bind_eq_ok_iff.1 h
                have hids' : (ids ++ [b.id]).Nodup :=
                  List.perm_append_comm.nodup_iff.1 (List.nodup_cons.2 ⟨fresh, hids⟩)
                obtain ⟨each, nodup⟩ := (ih hids').1 rest
                refine ⟨.cons ⟨b, declared, rfl⟩ each, ?_⟩
                rwa [List.append_assoc] at nodup
          · rintro ⟨_ | ⟨⟨b, declared, rfl⟩, each⟩, nodup⟩
            rename_i ds
            have split : ids ++ (Declaration.block b tree :: ds).filterMap Declaration.id?
                = (ids ++ [b.id]) ++ ds.filterMap Declaration.id? := by
              rw [List.append_assoc]
              rfl
            rw [split] at nodup
            have hids' := (List.nodup_append.1 nodup).1
            have fresh : b.id ∉ ids :=
              (List.nodup_cons.1 (List.perm_append_comm.nodup_iff.1 hids')).1
            refine ⟨b, declared, ?_⟩
            rw [if_neg fresh, bind_eq_ok_iff]
            exact ⟨ds, (ih hids').2 ⟨each, nodup⟩, rfl⟩

/-! ## Resolving references -/

theorem Scope.linkInstruction_eq_ok_iff {s : Scope} {b : Block} {i i' : Instruction}
    {tree : InstructionTree} :
    s.linkInstruction b i tree = .ok i' ↔
      (tree.elseTarget = none ∧ i' = i) ∨ ∃ digits e, tree.elseTarget = some digits ∧
        i.opcode = .branch ∧ s.find digits = .ok e ∧ e ∈ b.successors ∧
        i' = { i with elseTarget := some e } := by
  unfold linkInstruction
  cases tree.elseTarget with
  | none => simp [eq_comm]
  | some digits =>
      by_cases branch : i.opcode = .branch
      · simp only [branch, ne_eq, not_true_eq_false, if_false, bind_eq_ok_iff]
        constructor
        · rintro ⟨e, found, h⟩
          split at h
          · next mem =>
              cases h
              exact Or.inr ⟨digits, e, rfl, trivial, found, mem, rfl⟩
          · cases h
        · rintro (⟨h, -⟩ | ⟨_, e, ⟨⟩, -, found, mem, rfl⟩)
          · cases h
          · exact ⟨e, found, by rw [if_pos mem]⟩
      · simp [branch]

theorem Scope.linkBlock_eq_ok_iff {s : Scope} {b b' : Block} {tree : BlockTree} :
    s.linkBlock b tree = .ok b' ↔ ∃ ds is,
      List.Forall₂ (fun t d => s.find t = .ok d) tree.successors ds ∧
      List.Forall₂ (fun p i => s.linkInstruction { b with successors := ds } p.1 p.2 = .ok i)
        (b.instructions.zip tree.instructions) is ∧
      b' = { b with successors := ds, instructions := is } := by
  simp only [linkBlock, bind_eq_ok_iff, collect_eq_ok_iff, Except.ok.injEq, eq_comm (b := b')]
  constructor
  · rintro ⟨ds, hds, is, his, rfl⟩
    exact ⟨ds, is, hds, his, rfl⟩
  · rintro ⟨ds, is, hds, his, rfl⟩
    exact ⟨ds, hds, is, his, rfl⟩

/-- Whether a resolved item is what the second pass makes of a declaration. -/
def Scope.Resolves (s : Scope) : Declaration → Resolved → Prop
  | .block b tree, r => ∃ b', s.linkBlock b tree = .ok b' ∧ r = .block b'
  | .clause c, r => s.clause c = .ok r

/-- Whether a declaration is that of a root region. -/
def Declaration.isRegion : Declaration → Bool
  | block _ _ => false
  | clause c => c.isRegion

/-- The second pass looks at each declaration on its own, except that there has to be at
most one root region. -/
theorem Scope.resolve_eq_ok_iff {s : Scope} {rooted : Bool} {ds : List Declaration}
    {rs : List Resolved} :
    s.resolve rooted ds = .ok rs ↔
      List.Forall₂ s.Resolves ds rs ∧ rooted.toNat + ds.countP Declaration.isRegion ≤ 1 := by
  induction ds generalizing rooted rs with
  | nil =>
      have := rooted.toNat_le
      constructor
      · rintro ⟨⟩
        exact ⟨.nil, by simpa using this⟩
      · rintro ⟨⟨⟩, -⟩
        rfl
  | cons d ds ih =>
      cases d with
      | block b tree =>
          simp only [resolve, bind_eq_ok_iff, ih]
          constructor
          · rintro ⟨b', linked, rs, ⟨each, one⟩, ⟨⟩⟩
            exact ⟨.cons ⟨b', linked, rfl⟩ each, one⟩
          · rintro ⟨_ | ⟨⟨b', linked, rfl⟩, each⟩, one⟩
            exact ⟨b', linked, _, ⟨each, one⟩, rfl⟩
      | clause c =>
          rw [resolve]
          by_cases second : (rooted && c.isRegion) = true
          · rw [if_pos second]
            rw [Bool.and_eq_true] at second
            constructor
            · intro h
              cases h
            · rintro ⟨-, one⟩
              have head : Declaration.isRegion (.clause c) = true := second.2
              rw [second.1, List.countP_cons_of_pos head, Bool.toNat_true] at one
              omega
          · have count : (rooted || c.isRegion).toNat + ds.countP Declaration.isRegion
                = rooted.toNat + (Declaration.clause c :: ds).countP Declaration.isRegion := by
              rw [List.countP_cons]
              cases rooted <;> cases hc : c.isRegion <;>
                simp_all [Declaration.isRegion, Nat.add_comm]
            rw [if_neg second]
            simp only [bind_eq_ok_iff, ih, count]
            constructor
            · rintro ⟨r, resolved, rs, ⟨each, one⟩, ⟨⟩⟩
              exact ⟨.cons resolved each, one⟩
            · rintro ⟨_ | ⟨resolved, each⟩, one⟩
              exact ⟨_, resolved, _, ⟨each, one⟩, rfl⟩

/-- The full name of a method. -/
def MethodTree.fullName (tree : MethodTree) : Text :=
  unquote tree.className ++ '.' :: unquote tree.shortId

/-- Loading is the two passes, one after the other. -/
theorem MethodTree.load_eq_ok_iff {tree : MethodTree} {m : Method} :
    tree.load = .ok m ↔ ∃ ds rs, List.Forall₂ Declares tree.items ds ∧
      (ds.filterMap Declaration.id?).Nodup ∧
      List.Forall₂ (Scope.Resolves ⟨tree.fullName, ds.filterMap Declaration.id?⟩) ds rs ∧
      ds.countP Declaration.isRegion ≤ 1 ∧
      m = assemble (unquote tree.className) (unquote tree.shortId) rs := by
  simp only [load, bind_eq_ok_iff, declareItems_eq_ok_iff List.nodup_nil,
    Scope.resolve_eq_ok_iff, Except.ok.injEq, eq_comm (b := m), List.nil_append, Bool.toNat_false,
    Nat.zero_add]
  constructor
  · rintro ⟨ds, ⟨each, nodup⟩, rs, ⟨resolved, one⟩, rfl⟩
    exact ⟨ds, rs, each, nodup, resolved, one, rfl⟩
  · rintro ⟨ds, rs, each, nodup, resolved, one, rfl⟩
    exact ⟨ds, ⟨each, nodup⟩, rs, ⟨resolved, one⟩, rfl⟩

/-- A text is parsed if it is read and each of its trees is loaded. -/
theorem parse_eq_ok_iff {text : Text} {ms : List Method} :
    parse text = .ok ms ↔
      ∃ trees, read text = .ok trees ∧ List.Forall₂ (fun t m => MethodTree.load t = .ok m) trees ms := by
  unfold parse load
  cases read text with
  | error e =>
      constructor
      · intro h
        cases h
      · rintro ⟨trees, h, -⟩
        cases h
  | ok trees =>
      have loads : collect MethodTree.load trees = .ok ms ↔ _ := collect_eq_ok_iff
      dsimp only
      constructor
      · intro h
        refine ⟨trees, rfl, loads.1 ?_⟩
        cases loaded : collect MethodTree.load trees with
        | error e =>
            rw [loaded] at h
            cases h
        | ok ms' =>
            rw [loaded] at h
            cases h
            rfl
      · rintro ⟨_, ⟨⟩, each⟩
        rw [loads.2 each]

end FlowGraph.Listing
