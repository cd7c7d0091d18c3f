import FlowGraph.Listing.State
import FlowGraph.Proofs.Listing.Phrase

/-!
# Runs of the reader

`State.run` reads one token after another.  `State.consumed` gives back the tokens that
led to a state, and `consumed_run` says that a run has consumed exactly what it read.  So
a run that ends between methods has read the derivation of the methods it holds.
-/

namespace FlowGraph.Listing

/-! ## Tokens -/

@[simp] theorem leaves_joined {α : Type} (d : α → Derivation) (as : List α) :
    (joined d as).leaves = as.flatMap fun a => (d a).leaves := by
  induction as with
  | nil => rfl
  | cons a as ih => simp [joined, ih]

/-- A token of a terminal, with the terminal's own text where that has only one. -/
def Terminal.token (k : Terminal) (w : Text) : Token := ⟨k, k.text?.getD w⟩

theorem Token.eq_token_of_isSpelled {t : Token} (h : t.IsSpelled) :
    t = t.terminal.token t.lexeme := by
  obtain ⟨k, w⟩ := t
  unfold Terminal.token
  cases hk : k.text? with
  | none => rfl
  | some v => exact congrArg _ (h v hk)

/-! ## What a state has consumed -/

/-- The tokens read since the start up to a place among the items of a method. -/
def OpenMethod.consumed (m : OpenMethod) : List Token :=
  (joined MethodTree.derivation m.done).leaves
    ++ Keyword.method.token :: ⟨.string, m.className⟩ :: ⟨.string, m.shortId⟩ :: ⟨.lbrace, ['{']⟩
    :: (joined Item.derivation m.items).leaves

/-- The tokens read up to the offset of a block. -/
def OpenMethod.consumedOffset (m : OpenMethod) (id offset : Text) : List Token :=
  m.consumed ++ [Keyword.block.token, ⟨.int, id⟩, ⟨.atSign, ['@']⟩, ⟨.int, offset⟩]

/-- The tokens read up to a place among the instructions of a block. -/
def OpenBlock.consumed (b : OpenBlock) : List Token :=
  b.method.consumedOffset b.id b.offset ++ (successorsDerivation b.successors).leaves
    ++ (attributesDerivation? b.attributes).leaves
    ++ ⟨.lbrace, ['{']⟩ :: (joined InstructionTree.derivation b.instructions).leaves

/-- The tokens read up to the text of an instruction. -/
def OpenBlock.consumedText (b : OpenBlock) (opcode text : Text) : List Token :=
  b.consumed ++ [Keyword.insn.token, ⟨.name, opcode⟩, ⟨.string, text⟩]

/-- The tokens of a handler up to its brace. -/
def handlerTokens (catchType : Option Text) : List Token :=
  Keyword.handler.token :: (stringDerivation? catchType).leaves ++ [⟨.lbrace, ['{']⟩]

/-- The tokens of a region up to its description. -/
def regionTokens (kind description : Text) : List Token :=
  [Keyword.region.token, ⟨.name, kind⟩, ⟨.string, description⟩]

/-- The tokens of a region up to its brace. -/
def RegionLine.tokens (line : RegionLine) : List Token :=
  regionTokens line.kind line.description ++ (attributesDerivation? line.attributes).leaves
    ++ [⟨.lbrace, ['{']⟩]

/-- The tokens read before a region. -/
def RegionSite.consumed : RegionSite → List Token
  | item m => m.consumed
  | handler m catchType => m.consumed ++ handlerTokens catchType
  | child site line before => site.consumed ++ line.tokens ++ (itemsDerivation before).leaves

/-- The tokens read before a list of attributes. -/
def ListSite.consumed : ListSite → List Token
  | item m => m.consumed ++ [Keyword.attrs.token]
  | block m id offset ds => m.consumedOffset id offset ++ (successorsDerivation ds).leaves
  | instruction b opcode text target =>
      b.consumedText opcode text ++ (elseDerivation? target).leaves
  | region site kind description => site.consumed ++ regionTokens kind description

/-- The tokens read so far. -/
def State.consumed : State → List Token
  | top done => (joined MethodTree.derivation done).leaves
  | methodWord done => (joined MethodTree.derivation done).leaves ++ [Keyword.method.token]
  | methodClass done c =>
      (joined MethodTree.derivation done).leaves ++ [Keyword.method.token, ⟨.string, c⟩]
  | methodId done c i =>
      (joined MethodTree.derivation done).leaves
        ++ [Keyword.method.token, ⟨.string, c⟩, ⟨.string, i⟩]
  | body m => m.consumed
  | flags m names => m.consumed ++ (Clause.flags names).derivation.leaves
  | returnsWord m => m.consumed ++ [Keyword.returns.token]
  | argsWord m => m.consumed ++ [Keyword.args.token]
  | args m first more => m.consumed ++ (Clause.args first more).derivation.leaves
  | argsComma m first more =>
      m.consumed ++ (Clause.args first more).derivation.leaves ++ [⟨.comma, [',']⟩]
  | attrsWord m => m.consumed ++ [Keyword.attrs.token]
  | entryWord m => m.consumed ++ [Keyword.entry.token]
  | blockWord m => m.consumed ++ [Keyword.block.token]
  | blockId m id => m.consumed ++ [Keyword.block.token, ⟨.int, id⟩]
  | blockAt m id => m.consumed ++ [Keyword.block.token, ⟨.int, id⟩, ⟨.atSign, ['@']⟩]
  | blockOffset m id offset => m.consumedOffset id offset
  | blockArrow m id offset => m.consumedOffset id offset ++ [⟨.arrow, ['-', '>']⟩]
  | blockSuccessor m id offset d ds =>
      m.consumedOffset id offset ++ (successorsDerivation (d :: ds)).leaves
  | blockComma m id offset d ds =>
      m.consumedOffset id offset ++ (successorsDerivation (d :: ds)).leaves ++ [⟨.comma, [',']⟩]
  | blockListed m id offset ds as =>
      m.consumedOffset id offset ++ (successorsDerivation ds).leaves
        ++ (attributesDerivation as).leaves
  | blockBody b => b.consumed
  | instructionWord b => b.consumed ++ [Keyword.insn.token]
  | instructionOpcode b opcode => b.consumed ++ [Keyword.insn.token, ⟨.name, opcode⟩]
  | instructionText b opcode text => b.consumedText opcode text
  | elseWord b opcode text => b.consumedText opcode text ++ [Keyword.elseTo.token]
  | elseTarget b opcode text d => b.consumedText opcode text ++ (elseDerivation? (some d)).leaves
  | regionWord site => site.consumed ++ [Keyword.region.token]
  | regionKind site kind => site.consumed ++ [Keyword.region.token, ⟨.name, kind⟩]
  | regionText site kind description => site.consumed ++ regionTokens kind description
  | regionListed site line =>
      site.consumed ++ regionTokens line.kind line.description
        ++ (attributesDerivation? line.attributes).leaves
  | regionBody site line before => site.consumed ++ line.tokens ++ (itemsDerivation before).leaves
  | regionRef site line before =>
      site.consumed ++ line.tokens ++ (itemsDerivation before).leaves ++ [Keyword.block.token]
  | handlerWord m => m.consumed ++ [Keyword.handler.token]
  | handlerType m c => m.consumed ++ [Keyword.handler.token, ⟨.string, c⟩]
  | handlerBody m c => m.consumed ++ handlerTokens c
  | handlerRegion m c r => m.consumed ++ handlerTokens c ++ r.derivation.leaves
  | listOpen site => site.consumed ++ [⟨.lsqb, ['[']⟩]
  | listString site s ss => site.consumed ++ ⟨.lsqb, ['[']⟩ :: (stringsDerivation (s :: ss)).leaves
  | listComma site s ss =>
      site.consumed ++ ⟨.lsqb, ['[']⟩ :: (stringsDerivation (s :: ss)).leaves ++ [⟨.comma, [',']⟩]

/-! ## What closing a part consumes -/

@[simp] theorem OpenMethod.consumed_add (m : OpenMethod) (i : Item) :
    (m.add i).consumed = m.consumed ++ i.derivation.leaves := by
  simp [add, consumed]

@[simp] theorem OpenMethod.consumed_state (m : OpenMethod) (c : Clause) :
    (m.state c).consumed = m.consumed ++ c.derivation.leaves := consumed_add m (.clause c)

@[simp] theorem OpenBlock.consumed_add (b : OpenBlock) (i : InstructionTree) :
    (b.add i).consumed = b.consumed ++ i.derivation.leaves := by
  simp [add, consumed]

theorem OpenMethod.leaves_close (m : OpenMethod) :
    (joined MethodTree.derivation m.close).leaves = m.consumed ++ [⟨.rbrace, ['}']⟩] := by
  simp [close, consumed, MethodTree.derivation, Forest.leaves]

theorem OpenBlock.consumed_close (b : OpenBlock) :
    b.close.consumed = b.consumed ++ [⟨.rbrace, ['}']⟩] := by
  simp [close, consumed, OpenMethod.consumedOffset, Item.derivation, BlockTree.derivation,
    Forest.leaves]

theorem itemsDerivation_append : ∀ f g : RegionItems,
    itemsDerivation (f ++ g) = itemsDerivation f ++ itemsDerivation g
  | .nil, _ => rfl
  | .leaf d rest, g => by
      simp only [Forest.leaf_append, itemsDerivation, itemsDerivation_append rest g,
        Forest.append_assoc]
  | .node line body rest, g => by
      simp only [Forest.node_append, itemsDerivation, itemsDerivation_append rest g,
        Forest.append_assoc]

theorem RegionTree.leaves_derivation (r : RegionTree) :
    r.derivation.leaves
      = r.line.tokens ++ (itemsDerivation r.body).leaves ++ [⟨.rbrace, ['}']⟩] := by
  simp [derivation, regionDerivation, Forest.leaves, RegionLine.tokens, regionTokens]

theorem RegionSite.consumed_close (site : RegionSite) (line : RegionLine) (body : RegionItems) :
    (site.close ⟨line, body⟩).consumed
      = site.consumed ++ line.tokens ++ (itemsDerivation body).leaves ++ [⟨.rbrace, ['}']⟩] := by
  cases site with
  | item m =>
      simp [close, State.consumed, consumed, Clause.derivation, RegionTree.leaves_derivation]
  | handler m c =>
      simp [close, State.consumed, consumed, RegionTree.leaves_derivation]
  | child site outer before =>
      have inner := RegionTree.leaves_derivation ⟨line, body⟩
      simp only [RegionTree.derivation] at inner
      simp [close, State.consumed, consumed, itemsDerivation_append, itemsDerivation, inner]

theorem ListSite.consumed_close (site : ListSite) (ss : List Text) :
    (site.close ss).consumed
      = site.consumed ++ ⟨.lsqb, ['[']⟩ :: (stringsDerivation ss).leaves ++ [⟨.rsqb, [']']⟩] := by
  cases site <;>
    simp [close, State.consumed, consumed, Clause.derivation, attributesDerivation,
      InstructionTree.derivation, attributesDerivation?, Forest.leaves, OpenBlock.consumedText,
      regionTokens]

/-! ## What a token adds -/

theorem OpenMethod.consumed_step {m : OpenMethod} {k : Terminal} {s : State} (w : Text)
    (h : m.step k = some s) : s.consumed = m.consumed ++ [k.token w] := by
  unfold step at h
  split at h
  case h_10 =>
    cases h
    exact m.leaves_close
  case h_11 => cases h
  all_goals
    cases h
    simp [State.consumed, Clause.derivation, joined, Forest.leaves, RegionSite.consumed,
      Terminal.token, Keyword.token]

theorem OpenBlock.consumed_step {b : OpenBlock} {k : Terminal} {s : State} (w : Text)
    (h : b.step k = some s) : s.consumed = b.consumed ++ [k.token w] := by
  unfold step at h
  split at h
  · cases h
    rfl
  · cases h
    exact b.consumed_close
  · cases h

/-- A token that is read is the last that the next state has consumed. -/
theorem State.consumed_step {s s' : State} {t : Token} (ht : t.IsSpelled)
    (h : s.step t = some s') : s'.consumed = s.consumed ++ [t] := by
  rw [Token.eq_token_of_isSpelled ht]
  obtain ⟨k, w⟩ := t
  unfold step at h
  dsimp only at h ⊢
  split at h
  case h_4 =>
    cases h
    simp [consumed, OpenMethod.consumed, Terminal.token]
  -- The token belongs to the part around the one that it ends.
  case h_5 => exact OpenMethod.consumed_step w h
  case h_7 =>
    rw [OpenMethod.consumed_step w h, OpenMethod.consumed_state]
    rfl
  case h_11 =>
    rw [OpenMethod.consumed_step w h, OpenMethod.consumed_state]
    rfl
  case h_27 => exact OpenBlock.consumed_step w h
  case h_32 =>
    rw [OpenBlock.consumed_step w h, OpenBlock.consumed_add]
    rfl
  case h_35 =>
    rw [OpenBlock.consumed_step w h, OpenBlock.consumed_add]
    simp [consumed, OpenBlock.consumedText, InstructionTree.derivation, attributesDerivation?,
      Forest.leaves]
  -- The token closes a region or a list.
  case h_43 =>
    cases h
    exact RegionSite.consumed_close _ _ _
  case h_52 =>
    cases h
    simpa [consumed, stringsDerivation, Forest.leaves, Terminal.token]
      using ListSite.consumed_close _ []
  case h_54 =>
    cases h
    exact ListSite.consumed_close _ _
  case h_56 => cases h
  all_goals
    cases h
    simp [consumed, OpenMethod.consumedOffset, OpenBlock.consumed, OpenBlock.consumedText,
      ListSite.consumed, RegionSite.consumed, RegionLine.tokens, regionTokens, handlerTokens,
      Clause.derivation, further, joined, Forest.leaves, successorsDerivation,
      attributesDerivation, attributesDerivation?, elseDerivation?, stringDerivation?,
      stringsDerivation, itemsDerivation, itemsDerivation_append, referenceDerivation,
      Terminal.token, Keyword.token]

/-! ## Runs -/

/-- Reads one token after another. -/
def State.run : State → List Token → Option State
  | s, [] => some s
  | s, t :: ts => (s.step t).bind fun s' => s'.run ts

theorem State.run_cons (s : State) (t : Token) (ts : List Token) :
    s.run (t :: ts) = (s.step t).bind fun s' => s'.run ts := rfl

theorem State.run_append (s : State) (ts us : List Token) :
    s.run (ts ++ us) = (s.run ts).bind fun s' => s'.run us := by
  induction ts generalizing s with
  | nil => rfl
  | cons t ts ih =>
      rw [List.cons_append, run_cons, run_cons, Option.bind_assoc]
      exact congrArg _ (funext ih)

/-- A run ends in a state that has consumed its tokens. -/
theorem State.consumed_run {s s' : State} {ts : List Token} (hts : ∀ t ∈ ts, t.IsSpelled)
    (h : s.run ts = some s') : s'.consumed = s.consumed ++ ts := by
  induction ts generalizing s with
  | nil =>
      cases h
      exact (List.append_nil _).symm
  | cons t ts ih =>
      obtain ⟨ht, hts⟩ := List.forall_mem_cons.1 hts
      obtain ⟨s₁, h₁, h₂⟩ := Option.bind_eq_some_iff.1 h
      rw [ih hts h₂, consumed_step ht h₁, List.append_assoc]
      rfl

end FlowGraph.Listing
