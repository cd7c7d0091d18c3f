import FlowGraph.Proofs.Listing.Run

/-!
# Derivations as runs

The tokens of a tree take the reader from between methods back to it, with the tree
added (`run_listing`).  The lemmas follow the phrases of the grammar: each runs the
tokens of one phrase from a place at which it may stand.

A phrase with an optional end leaves the reader in one of several states.  They differ in
what they still accept, but a token that starts what comes next does the same in all of
them.  `State.Awaits` and `State.AwaitsInstruction` name what they share.
-/

namespace FlowGraph.Listing

namespace State

/-! ## Lists of phrases -/

/-- Phrases one after another, where the tokens of each keep a property of the state. -/
theorem run_joined {α σ : Type} {d : α → Derivation} {add : σ → α → σ} {P : σ → State → Prop}
    (one : ∀ {a s} x, P a s → ∃ s', s.run (d x).leaves = some s' ∧ P (add a x) s')
    {a : σ} {s : State} (h : P a s) (xs : List α) :
    ∃ s', s.run (joined d xs).leaves = some s' ∧ P (xs.foldl add a) s' := by
  induction xs generalizing a s with
  | nil => exact ⟨s, rfl, h⟩
  | cons x xs ih =>
      obtain ⟨s₁, run₁, h₁⟩ := one x h
      obtain ⟨s₂, run₂, h₂⟩ := ih h₁
      refine ⟨s₂, ?_, h₂⟩
      rw [joined, Forest.leaves_append, run_append, run₁]
      exact run₂

/-- Phrases of one text each, where a state is known by the texts so far. -/
theorem run_texts {d : Text → Derivation} (place : List Text → State)
    (one : ∀ ws w, (place ws).run (d w).leaves = some (place (ws ++ [w])))
    (ws more : List Text) : (place ws).run (joined d more).leaves = some (place (ws ++ more)) := by
  induction more generalizing ws with
  | nil =>
      rw [List.append_nil]
      rfl
  | cons w more ih =>
      rw [joined, Forest.leaves_append, run_append, one]
      exact (ih (ws ++ [w])).trans (by rw [List.append_assoc]; rfl)

/-! ## Lists of attributes -/

theorem run_strings (site : ListSite) (ss : List Text) :
    (listOpen site).run ((stringsDerivation ss).leaves ++ [⟨.rsqb, [']']⟩])
      = some (site.close ss) := by
  cases ss with
  | nil => rfl
  | cons s ss =>
      have more : (listString site s []).run (further .string ss).leaves
          = some (listString site s ss) := run_texts (listString site s) (fun _ _ => rfl) [] ss
      rw [run_append]
      show ((listString site s []).run (further .string ss).leaves).bind _ = _
      rw [more]
      rfl

/-- The place of a list after which the reader is here. -/
def Opens (s : State) (site : ListSite) : Prop :=
  s.step ⟨.lsqb, ['[']⟩ = some (listOpen site)

theorem run_attributes {s : State} {site : ListSite} (h : s.Opens site) (as : List Text) :
    s.run (attributesDerivation as).leaves = some (site.close as) := by
  have split : (attributesDerivation as).leaves
      = ⟨.lsqb, ['[']⟩ :: ((stringsDerivation as).leaves ++ [⟨.rsqb, [']']⟩]) := by
    simp [attributesDerivation, Forest.leaves]
  rw [split, run_cons, h]
  exact run_strings site as

/-! ## Instructions and blocks -/

/-- Whether the reader is at a place between the instructions of a block. -/
def AwaitsInstruction (b : OpenBlock) (s : State) : Prop :=
  ∀ t : Token, t.terminal = .keyword .insn ∨ t.terminal = .rbrace → s.step t = b.step t.terminal

theorem awaitsInstruction_body (b : OpenBlock) : AwaitsInstruction b (blockBody b) :=
  fun _ _ => rfl

theorem run_instruction {b : OpenBlock} {s : State} (i : InstructionTree)
    (h : AwaitsInstruction b s) :
    ∃ s', s.run i.derivation.leaves = some s' ∧ AwaitsInstruction (b.add i) s' := by
  obtain ⟨opcode, text, target, attributes⟩ := i
  have start : s.step Keyword.insn.token = some (instructionWord b) := h _ (Or.inl rfl)
  -- The states before an attribute list: with an else target and without one.
  obtain ⟨s₁, run₁, opens, awaits⟩ : ∃ s₁,
      (instructionText b opcode text).run (elseDerivation? target).leaves = some s₁
        ∧ s₁.Opens (.instruction b opcode text target)
        ∧ AwaitsInstruction (b.add ⟨opcode, text, target, none⟩) s₁ := by
    cases target with
    | none =>
        refine ⟨instructionText b opcode text, rfl, rfl, ?_⟩
        rintro ⟨k, w⟩ (rfl | rfl) <;> rfl
    | some d =>
        refine ⟨elseTarget b opcode text d, rfl, rfl, ?_⟩
        rintro ⟨k, w⟩ (rfl | rfl) <;> rfl
  obtain ⟨s₂, run₂, awaits₂⟩ : ∃ s₂, s₁.run (attributesDerivation? attributes).leaves = some s₂
      ∧ AwaitsInstruction (b.add ⟨opcode, text, target, attributes⟩) s₂ := by
    cases attributes with
    | none => exact ⟨s₁, rfl, awaits⟩
    | some as => exact ⟨_, run_attributes opens as, awaitsInstruction_body _⟩
  refine ⟨s₂, ?_, awaits₂⟩
  have split : (InstructionTree.derivation ⟨opcode, text, target, attributes⟩).leaves
      = Keyword.insn.token :: ⟨.name, opcode⟩ :: ⟨.string, text⟩
        :: ((elseDerivation? target).leaves ++ (attributesDerivation? attributes).leaves) := by
    simp [InstructionTree.derivation, Forest.leaves]
  rw [split, run_cons, start]
  show (instructionText b opcode text).run _ = _
  rw [run_append, run₁]
  exact run₂

theorem OpenBlock.foldl_add (b : OpenBlock) (is : List InstructionTree) :
    is.foldl OpenBlock.add b = { b with instructions := b.instructions ++ is } := by
  induction is generalizing b with
  | nil => simp
  | cons i is ih => simp [ih, OpenBlock.add]

/-- The declaration of a block, from its keyword on. -/
theorem run_block {m : OpenMethod} {s : State} (h : s.step Keyword.block.token = some (blockWord m))
    (b : BlockTree) : s.run b.derivation.leaves = some (body (m.add (.block b))) := by
  obtain ⟨id, offset, ds, attributes, is⟩ := b
  -- The states before an attribute list: with successors and without.
  obtain ⟨s₁, run₁, opens, braced⟩ : ∃ s₁,
      (blockOffset m id offset).run (successorsDerivation ds).leaves = some s₁
        ∧ s₁.Opens (.block m id offset ds)
        ∧ s₁.step ⟨.lbrace, ['{']⟩ = some (blockBody ⟨m, id, offset, ds, none, []⟩) := by
    cases ds with
    | nil => exact ⟨blockOffset m id offset, rfl, rfl, rfl⟩
    | cons d ds =>
        refine ⟨blockSuccessor m id offset d ds, ?_, rfl, rfl⟩
        have more : (blockSuccessor m id offset d []).run (further .int ds).leaves
            = some (blockSuccessor m id offset d ds) :=
          run_texts (blockSuccessor m id offset d) (fun _ _ => rfl) [] ds
        have split : (successorsDerivation (d :: ds)).leaves
            = ⟨.arrow, ['-', '>']⟩ :: ⟨.int, d⟩ :: (further .int ds).leaves := by
          simp [successorsDerivation, Forest.leaves]
        rw [split]
        exact more
  obtain ⟨s₂, run₂, braced₂⟩ : ∃ s₂, s₁.run (attributesDerivation? attributes).leaves = some s₂
      ∧ s₂.step ⟨.lbrace, ['{']⟩ = some (blockBody ⟨m, id, offset, ds, attributes, []⟩) := by
    cases attributes with
    | none => exact ⟨s₁, rfl, braced⟩
    | some as => exact ⟨_, run_attributes opens as, rfl⟩
  obtain ⟨s₃, run₃, awaits⟩ := run_joined (P := AwaitsInstruction) run_instruction
    (awaitsInstruction_body ⟨m, id, offset, ds, attributes, []⟩) is
  rw [OpenBlock.foldl_add] at awaits
  have split : (BlockTree.derivation ⟨id, offset, ds, attributes, is⟩).leaves
      = Keyword.block.token :: ⟨.int, id⟩ :: ⟨.atSign, ['@']⟩ :: ⟨.int, offset⟩
        :: ((successorsDerivation ds).leaves ++ ((attributesDerivation? attributes).leaves
          ++ ⟨.lbrace, ['{']⟩
            :: ((joined InstructionTree.derivation is).leaves ++ [⟨.rbrace, ['}']⟩]))) := by
    simp [BlockTree.derivation, Forest.leaves]
  rw [split, run_cons, h]
  show (blockOffset m id offset).run _ = _
  rw [run_append, run₁]
  show s₁.run _ = _
  rw [run_append, run₂]
  show s₂.run _ = _
  rw [run_cons, braced₂]
  show (blockBody _).run _ = _
  rw [run_append, run₃]
  show s₃.run _ = _
  rw [run_cons, awaits _ (Or.inr rfl)]
  rfl

/-! ## Regions -/

/-- The line of a region, from its keyword to its brace. -/
theorem run_regionLine {site : RegionSite} {s : State}
    (h : s.step Keyword.region.token = some (regionWord site)) (line : RegionLine) :
    s.run line.tokens = some (regionBody site line .nil) := by
  obtain ⟨kind, description, attributes⟩ := line
  have split : RegionLine.tokens ⟨kind, description, attributes⟩
      = Keyword.region.token :: ⟨.name, kind⟩ :: ⟨.string, description⟩
        :: ((attributesDerivation? attributes).leaves ++ [⟨.lbrace, ['{']⟩]) := rfl
  rw [split, run_cons, h]
  show (regionText site kind description).run _ = _
  cases attributes with
  | none => rfl
  | some as =>
      have opens : (regionText site kind description).Opens (.region site kind description) := rfl
      rw [run_append]
      show ((regionText site kind description).run (attributesDerivation as).leaves).bind _ = _
      rw [run_attributes opens as]
      rfl

/-- The body of a region.  A region inside it has its own site, around which the items
before it are kept. -/
theorem run_regionItems (site : RegionSite) (line : RegionLine) (before items : RegionItems) :
    (regionBody site line before).run (itemsDerivation items).leaves
      = some (regionBody site line (before ++ items)) := by
  induction items generalizing site line before with
  | nil =>
      rw [Forest.append_nil]
      rfl
  | leaf d rest ih =>
      show (regionBody site line (before ++ .leaf d .nil)).run (itemsDerivation rest).leaves = _
      rw [ih, Forest.append_assoc]
      rfl
  | node inner inside rest ihInside ihRest =>
      have opened : (regionBody site line before).run inner.tokens
          = some (regionBody (.child site line before) inner .nil) := run_regionLine rfl inner
      have split : (itemsDerivation (.node inner inside rest)).leaves
          = inner.tokens ++ ((itemsDerivation inside).leaves
            ++ ⟨.rbrace, ['}']⟩ :: (itemsDerivation rest).leaves) := by
        have leaves := RegionTree.leaves_derivation ⟨inner, inside⟩
        simp only [RegionTree.derivation] at leaves
        simp [itemsDerivation, leaves]
      rw [split, run_append, opened]
      show (regionBody _ inner .nil).run _ = _
      rw [run_append, ihInside]
      show (regionBody site line (before ++ .node inner (.nil ++ inside) .nil)).run
        (itemsDerivation rest).leaves = _
      rw [ihRest, Forest.append_assoc]
      rfl

theorem run_region (site : RegionSite) {s : State}
    (h : s.step Keyword.region.token = some (regionWord site)) (r : RegionTree) :
    s.run r.derivation.leaves = some (site.close r) := by
  rw [r.leaves_derivation, List.append_assoc, run_append, run_regionLine h]
  show (regionBody site r.line .nil).run _ = _
  rw [run_append, run_regionItems]
  rfl

/-! ## Items and methods -/

/-- Whether the reader is at a place between the items of a method. -/
def Awaits (m : OpenMethod) (s : State) : Prop :=
  ∀ t : Token, startsItem t.terminal = true → s.step t = m.step t.terminal

theorem awaits_body (m : OpenMethod) : Awaits m (body m) := fun _ _ => rfl

theorem awaits_flags (m : OpenMethod) (names : List Text) :
    Awaits (m.state (.flags names)) (flags m names) := by
  rintro ⟨k, w⟩ hk
  cases k with
  | name => cases hk
  | _ => rfl

theorem awaits_args (m : OpenMethod) (first : Text) (more : List Text) :
    Awaits (m.state (.args first more)) (args m first more) := by
  rintro ⟨k, w⟩ hk
  cases k with
  | comma => cases hk
  | _ => rfl

theorem run_handler {m : OpenMethod} {s : State}
    (h : s.step Keyword.handler.token = some (handlerWord m)) (c : Option Text)
    (r : Option RegionTree) :
    s.run (Clause.handler c r).derivation.leaves = some (body (m.state (.handler c r))) := by
  have opened : s.run (handlerTokens c) = some (handlerBody m c) := by
    cases c with
    | none =>
        show (s.step Keyword.handler.token).bind _ = _
        rw [h]
        rfl
    | some type =>
        show (s.step Keyword.handler.token).bind _ = _
        rw [h]
        rfl
  have split : (Clause.handler c r).derivation.leaves
      = handlerTokens c ++ (Forest.leaves ((r.map RegionTree.derivation).getD .nil)
        ++ [⟨.rbrace, ['}']⟩]) := by
    simp [Clause.derivation, Forest.leaves, handlerTokens]
  rw [split, run_append, opened]
  show (handlerBody m c).run _ = _
  cases r with
  | none => rfl
  | some r =>
      rw [run_append]
      show ((handlerBody m c).run r.derivation.leaves).bind _ = _
      rw [run_region (.handler m c) rfl r]
      rfl

theorem run_clause {m : OpenMethod} {s : State} (c : Clause) (h : Awaits m s) :
    ∃ s', s.run c.derivation.leaves = some s' ∧ Awaits (m.state c) s' := by
  cases c with
  | flags names =>
      refine ⟨flags m names, ?_, awaits_flags m names⟩
      have split : (Clause.flags names).derivation.leaves = Keyword.flags.token
          :: Forest.leaves (joined (fun w => .leaf ⟨.name, w⟩ .nil) names : Derivation) := by
        simp [Clause.derivation, Forest.leaves]
      rw [split, run_cons, h _ rfl]
      exact run_texts (flags m) (fun _ _ => rfl) [] names
  | returns type =>
      refine ⟨_, ?_, awaits_body _⟩
      show (s.step Keyword.returns.token).bind _ = _
      rw [h _ rfl]
      rfl
  | args first more =>
      refine ⟨args m first more, ?_, awaits_args m first more⟩
      have split : (Clause.args first more).derivation.leaves
          = Keyword.args.token :: ⟨.string, first⟩ :: (further .string more).leaves := by
        simp [Clause.derivation, Forest.leaves]
      rw [split, run_cons, h _ rfl]
      exact run_texts (args m first) (fun _ _ => rfl) [] more
  | attrs as =>
      refine ⟨_, ?_, awaits_body _⟩
      have opens : (attrsWord m).Opens (.item m) := rfl
      have split : (Clause.attrs as).derivation.leaves
          = Keyword.attrs.token :: (attributesDerivation as).leaves := by
        simp [Clause.derivation, Forest.leaves]
      rw [split, run_cons, h _ rfl]
      exact run_attributes opens as
  | nocode =>
      refine ⟨_, ?_, awaits_body _⟩
      show (s.step Keyword.nocode.token).bind _ = _
      rw [h _ rfl]
      rfl
  | entry d =>
      refine ⟨_, ?_, awaits_body _⟩
      show (s.step Keyword.entry.token).bind _ = _
      rw [h _ rfl]
      rfl
  | region r => exact ⟨_, run_region (.item m) (h _ rfl) r, awaits_body _⟩
  | handler c r => exact ⟨_, run_handler (h _ rfl) c r, awaits_body _⟩

theorem run_item {m : OpenMethod} {s : State} (i : Item) (h : Awaits m s) :
    ∃ s', s.run i.derivation.leaves = some s' ∧ Awaits (m.add i) s' := by
  cases i with
  | block b => exact ⟨_, run_block (h _ rfl) b, awaits_body _⟩
  | clause c => exact run_clause c h

theorem OpenMethod.foldl_add (m : OpenMethod) (is : List Item) :
    is.foldl OpenMethod.add m = { m with items := m.items ++ is } := by
  induction is generalizing m with
  | nil => simp
  | cons i is ih => simp [ih, OpenMethod.add]

theorem run_method (done : List MethodTree) (m : MethodTree) :
    (top done).run m.derivation.leaves = some (top (done ++ [m])) := by
  obtain ⟨c, i, items⟩ := m
  obtain ⟨s, run, awaits⟩ :=
    run_joined (P := Awaits) run_item (awaits_body ⟨done, c, i, []⟩) items
  rw [OpenMethod.foldl_add] at awaits
  have split : (MethodTree.derivation ⟨c, i, items⟩).leaves
      = Keyword.method.token :: ⟨.string, c⟩ :: ⟨.string, i⟩ :: ⟨.lbrace, ['{']⟩
        :: ((joined Item.derivation items).leaves ++ [⟨.rbrace, ['}']⟩]) := by
    simp [MethodTree.derivation, Forest.leaves]
  rw [split]
  show (body ⟨done, c, i, []⟩).run _ = _
  rw [run_append, run]
  show (s.step ⟨.rbrace, ['}']⟩).bind _ = _
  rw [awaits _ rfl]
  rfl

/-- The tokens of methods take the reader back between methods, with the methods. -/
theorem run_listing (done trees : List MethodTree) :
    (top done).run (joined MethodTree.derivation trees).leaves = some (top (done ++ trees)) := by
  induction trees generalizing done with
  | nil =>
      rw [List.append_nil]
      rfl
  | cons m trees ih =>
      rw [joined, Forest.leaves_append, run_append, run_method]
      exact (ih (done ++ [m])).trans (by rw [List.append_assoc]; rfl)

end State

/-! ## Derivable sequences -/

theorem leaves_listingDerivation (trees : List MethodTree) :
    (listingDerivation trees).leaves = (joined MethodTree.derivation trees).leaves := by
  simp [listingDerivation, Forest.leaves]

/-- A run from the start ends between methods just if it reads the tokens of the methods
it ends with. -/
theorem State.run_top_iff {ts : List Token} (hts : ∀ t ∈ ts, t.IsSpelled)
    {trees : List MethodTree} :
    (top []).run ts = some (top trees) ↔ (listingDerivation trees).leaves = ts := by
  rw [leaves_listingDerivation]
  constructor
  · intro h
    exact consumed_run hts h
  · intro h
    rw [← h]
    exact run_listing [] trees

theorem listingDerivation_injective {trees trees' : List MethodTree}
    (h : (listingDerivation trees).leaves = (listingDerivation trees').leaves) :
    trees = trees' := by
  have run := State.run_listing [] trees
  rw [leaves_listingDerivation, leaves_listingDerivation] at h
  rw [h, State.run_listing] at run
  injection run with run
  injection run with run
  exact run.symm

/-- A sequence of tokens has at most one derivation. -/
theorem derivation_unique {f g : Derivation} (hf : Derives (.symbol .start) f)
    (hg : Derives (.symbol .start) g) (h : f.leaves = g.leaves) : f = g := by
  obtain ⟨trees, rfl⟩ := (denotes_listing f).1 hf
  obtain ⟨trees', rfl⟩ := (denotes_listing g).1 hg
  rw [listingDerivation_injective h]

end FlowGraph.Listing
