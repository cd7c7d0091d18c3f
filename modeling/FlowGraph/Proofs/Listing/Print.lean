import FlowGraph.Listing.Load
import FlowGraph.Proofs.Listing.Layout
import FlowGraph.Proofs.Listing.Quote
import FlowGraph.Proofs.Method.WellFormed

/-!
# Writing methods

`print` writes methods as a listing.  `methodTree` says each part of a method in its own
item, in a fixed order, with the blocks last, and the tokens of the trees are written with
blanks between them.

`Writable` is what a method needs for that: references that fit, natural numbers
that are not too long, and words where the listing has no quotes.  The tokens then have
the form of their terminals (`formed_methodTree`), so the trees are read back
(`read_print`).
-/

namespace FlowGraph.Listing

/-! ## Trees of methods -/

/-- A list of attributes, which is left out if it is empty. -/
def attributesTree (as : List Text) : Option (List Text) :=
  if as = [] then none else some (as.map quoted)

/-- The number of the block at a position. -/
def blockDigits (m : Method) (i : Nat) : Text := Text.natural (m.blockId i).toNat

def instructionTree (m : Method) (i : Instruction) : InstructionTree :=
  ⟨i.opcode.name, quoted i.text, i.elseTarget.map (blockDigits m), attributesTree i.attributes⟩

def blockTree (m : Method) (b : Block) : BlockTree :=
  ⟨Text.natural b.id.toNat, Text.natural b.offset.toNat, b.successors.map (blockDigits m),
    attributesTree b.attributes, b.instructions.map (instructionTree m)⟩

/-- The line that opens a region. -/
def regionLine (h : RegionHead) : RegionLine :=
  ⟨h.kind, quoted h.description, attributesTree h.attributes⟩

/-- The blocks and regions inside a region. -/
def regionItems (m : Method) : RegionForest → RegionItems
  | .nil => .nil
  | .leaf i rest => .leaf (blockDigits m i) (regionItems m rest)
  | .node h body rest => .node (regionLine h) (regionItems m body) (regionItems m rest)

def regionTree (m : Method) (r : Region) : RegionTree := ⟨regionLine r.head, regionItems m r.body⟩

/-- The clause of some arguments, of which there may be none. -/
def argumentClauses : List Text → List Clause
  | [] => []
  | t :: ts => [.args (quoted t) (ts.map quoted)]

def handlerClause (m : Method) (h : Handler) : Clause :=
  .handler (some (quoted h.catchType)) (h.region.map (regionTree m))

/-- What a listing states about a method besides its blocks. -/
def clausesOf (m : Method) : List Clause :=
  .flags m.flags :: .returns (quoted m.returnType) :: .attrs (m.attributes.map quoted)
    :: (argumentClauses m.arguments ++ (if m.noCode then [.nocode] else [])
      ++ (m.entry.map fun i => .entry (blockDigits m i)).toList
      ++ (m.region.map fun r => .region (regionTree m r)).toList
      ++ m.handlers.map (handlerClause m))

/-- A method as a listing states it. -/
def methodTree (m : Method) : MethodTree where
  className := quoted m.className
  shortId := quoted m.shortId
  items := (clausesOf m).map .clause ++ m.blocks.map fun b => .block (blockTree m b)

/-- The listing of some methods. -/
def print (ms : List Method) : Text := spaced (listingDerivation (ms.map methodTree)).leaves

/-! ## Methods that can be written -/

/-- Whether a number is natural and not too long to be read. -/
def IsShort (n : Int) : Prop := 0 ≤ n ∧ (Text.natural n.toNat).length ≤ digitLimit

/-- The heads of a region and of the regions inside it. -/
def regionHeads (r : Region) : List RegionHead := r.head :: r.body.labels

/-- What a method needs to be written as a listing. -/
structure Writable (m : Method) : Prop extends m.Linked where
  /-- The numbers of blocks are not too long. -/
  ids_short : ∀ b ∈ m.blocks, IsShort b.id
  /-- The offsets are natural numbers and not too long. -/
  offsets_short : ∀ b ∈ m.blocks, IsShort b.offset
  /-- The access flags are words. -/
  flags_word : ∀ w ∈ m.flags, IsWord w
  /-- No access flag is a keyword that starts an item. -/
  flags_fit : FlagsFit m.flags
  /-- The kinds of regions are words. -/
  kinds_word : ∀ r ∈ m.regions, ∀ h ∈ regionHeads r, IsWord h.kind

instance (n : Int) : Decidable (IsShort n) := by
  unfold IsShort
  infer_instance

instance (m : Method) : Decidable (Writable m) :=
  decidable_of_iff (m.Linked ∧ (∀ b ∈ m.blocks, IsShort b.id) ∧ (∀ b ∈ m.blocks, IsShort b.offset)
      ∧ (∀ w ∈ m.flags, IsWord w) ∧ FlagsFit m.flags
      ∧ ∀ r ∈ m.regions, ∀ h ∈ regionHeads r, IsWord h.kind)
    ⟨fun ⟨linked, ids, offsets, words, fit, kinds⟩ => ⟨linked, ids, offsets, words, fit, kinds⟩,
      fun h => ⟨h.toLinked, h.ids_short, h.offsets_short, h.flags_word, h.flags_fit, h.kinds_word⟩⟩

/-! ## The form of the tokens -/

/-- Whether the tokens of a derivation have the form of their terminals. -/
def Formed (f : Derivation) : Prop := ∀ t ∈ f.leaves, t.IsFormed

section Formed

variable {f g : Derivation}

@[simp] theorem formed_nil : Formed .nil := by
  intro t ht
  cases ht

@[simp] theorem formed_leaf (t : Token) : Formed (.leaf t f) ↔ t.IsFormed ∧ Formed f := by
  simp [Formed, Forest.leaves]

@[simp] theorem formed_node (s : Symbol) : Formed (.node s f g) ↔ Formed f ∧ Formed g := by
  simp only [Formed, Forest.leaves, List.forall_mem_append]

@[simp] theorem formed_append : Formed (f ++ g) ↔ Formed f ∧ Formed g := by
  simp only [Formed, Forest.leaves_append, List.forall_mem_append]

@[simp] theorem formed_joined {α : Type} (d : α → Derivation) (as : List α) :
    Formed (joined d as) ↔ ∀ a ∈ as, Formed (d a) := by
  induction as with
  | nil => simp [joined]
  | cons a as ih => simp [joined, ih]

end Formed

@[simp] theorem isFormed_quoted (t : Text) : Token.IsFormed ⟨.string, quoted t⟩ :=
  ⟨_, isStringBody_escaped t, rfl⟩

@[simp] theorem isFormed_natural (n : Nat) : Token.IsFormed ⟨.int, Text.natural n⟩ :=
  ⟨Nat.toDigits_ne_nil, fun _ => Text.isDigit_of_mem_natural⟩

@[simp] theorem isFormed_name (w : Text) : Token.IsFormed ⟨.name, w⟩ ↔ IsWord w := Iff.rfl

theorem isFormed_of_text {t : Token} (h : t.terminal.text? = some t.lexeme) : t.IsFormed := by
  have spelled : t.IsSpelled := fun v hv => Option.some.inj (h.symm.trans hv)
  unfold Token.IsFormed
  split
  case h_4 => exact spelled
  all_goals
    next eq =>
      rw [eq] at h
      cases h

@[simp] theorem isFormed_keyword (k : Keyword) : k.token.IsFormed := isFormed_of_text rfl

@[simp] theorem isFormed_lbrace : Token.IsFormed ⟨.lbrace, ['{']⟩ := isFormed_of_text rfl
@[simp] theorem isFormed_rbrace : Token.IsFormed ⟨.rbrace, ['}']⟩ := isFormed_of_text rfl
@[simp] theorem isFormed_lsqb : Token.IsFormed ⟨.lsqb, ['[']⟩ := isFormed_of_text rfl
@[simp] theorem isFormed_rsqb : Token.IsFormed ⟨.rsqb, [']']⟩ := isFormed_of_text rfl
@[simp] theorem isFormed_comma : Token.IsFormed ⟨.comma, [',']⟩ := isFormed_of_text rfl
@[simp] theorem isFormed_atSign : Token.IsFormed ⟨.atSign, ['@']⟩ := isFormed_of_text rfl
@[simp] theorem isFormed_arrow : Token.IsFormed ⟨.arrow, ['-', '>']⟩ := isFormed_of_text rfl

theorem formed_further {α : Type} {k : Terminal} {text : α → Text}
    (h : ∀ a, Token.IsFormed ⟨k, text a⟩) (as : List α) : Formed (further k (as.map text)) := by
  simp [further, h]

@[simp] theorem formed_attributes (as : List Text) :
    Formed (attributesDerivation (as.map quoted)) := by
  cases as with
  | nil => simp [attributesDerivation, stringsDerivation]
  | cons a as => simp [attributesDerivation, stringsDerivation, formed_further]

@[simp] theorem formed_attributesTree (as : List Text) :
    Formed (attributesDerivation? (attributesTree as)) := by
  unfold attributesTree attributesDerivation?
  split <;> simp

@[simp] theorem isFormed_blockDigits (m : Method) (i : Nat) :
    Token.IsFormed ⟨.int, blockDigits m i⟩ := isFormed_natural _

theorem isWord_name (o : Opcode) : IsWord o.name := by
  have all : ∀ o ∈ Opcode.all, IsWord o.name := by decide +kernel
  exact all o (Opcode.mem_all o)

theorem formed_instruction (m : Method) (i : Instruction) :
    Formed (instructionTree m i).derivation := by
  unfold instructionTree InstructionTree.derivation
  cases i.elseTarget <;> simp [elseDerivation?, isWord_name]

theorem formed_block (m : Method) (b : Block) : Formed (blockTree m b).derivation := by
  unfold blockTree BlockTree.derivation
  cases b.successors <;>
    simp [successorsDerivation, formed_further, formed_instruction]

theorem formed_regionItems (m : Method) {f : RegionForest}
    (kinds : ∀ h ∈ f.labels, IsWord h.kind) : Formed (itemsDerivation (regionItems m f)) := by
  induction f with
  | nil => exact formed_nil
  | leaf i rest ih =>
      rw [regionItems, itemsDerivation, formed_append]
      exact ⟨by simp [referenceDerivation], ih kinds⟩
  | node h body rest ihBody ihRest =>
      obtain ⟨kind, kinds⟩ := List.forall_mem_cons.1 kinds
      obtain ⟨inner, outer⟩ := List.forall_mem_append.1 kinds
      rw [regionItems, itemsDerivation, formed_append]
      refine ⟨?_, ihRest outer⟩
      simp [regionDerivation, regionLine, kind, ihBody inner]

theorem formed_region (m : Method) {r : Region} (kinds : ∀ h ∈ regionHeads r, IsWord h.kind) :
    Formed (regionTree m r).derivation := by
  obtain ⟨kind, kinds⟩ := List.forall_mem_cons.1 kinds
  simp [regionTree, RegionTree.derivation, regionDerivation, regionLine, kind,
    formed_regionItems m kinds]

theorem formed_handler (m : Method) {h : Handler}
    (kinds : ∀ r ∈ h.region, ∀ head ∈ regionHeads r, IsWord head.kind) :
    Formed (handlerClause m h).derivation := by
  unfold handlerClause Clause.derivation
  cases hr : h.region with
  | none => simp [stringDerivation?]
  | some r => simp [stringDerivation?, formed_region m (kinds r hr)]

theorem formed_argumentClauses (ts : List Text) :
    ∀ c ∈ argumentClauses ts, Formed (Clause.derivation c) := by
  cases ts with
  | nil =>
      intro c hc
      cases hc
  | cons t ts => simp [argumentClauses, Clause.derivation, formed_further]

theorem formed_clausesOf {m : Method} (hm : Writable m) :
    ∀ c ∈ clausesOf m, Formed (Clause.derivation c) := by
  intro c hc
  simp only [clausesOf, List.mem_cons, List.mem_append, List.mem_map, Option.mem_toList,
    Option.map_eq_some_iff] at hc
  rcases hc with rfl | rfl | rfl | (((hc | hc) | ⟨i, -, rfl⟩) | ⟨r, hr, rfl⟩) | ⟨h, hh, rfl⟩
  · simpa [Clause.derivation] using hm.flags_word
  · simp [Clause.derivation]
  · simp [Clause.derivation]
  · exact formed_argumentClauses _ c hc
  · split at hc
    · rw [List.mem_singleton.1 hc]
      simp [Clause.derivation]
    · cases hc
  · simp [Clause.derivation]
  · exact formed_region m (hm.kinds_word r (Method.mem_regions_of_root hr))
  · exact formed_handler m fun r hr => hm.kinds_word r (Method.mem_regions_of_handler hh hr)

theorem formed_methodTree {m : Method} (hm : Writable m) : Formed (methodTree m).derivation := by
  have clauses := formed_clausesOf hm
  simp only [methodTree, MethodTree.derivation, formed_node, formed_leaf, formed_append,
    formed_joined, formed_nil, isFormed_keyword, isFormed_quoted, isFormed_lbrace,
    isFormed_rbrace, and_true, true_and, List.forall_mem_append, List.forall_mem_map]
  exact ⟨clauses, fun b _ => formed_block m b⟩

/-! ## Reading back -/

theorem flagWords_methodTree (m : Method) : (methodTree m).flagWords = m.flags := by
  have noFlags : ∀ i ∈ (methodTree m).items.tail, i.flagWords = [] := by
    intro i hi
    simp only [methodTree, clausesOf, List.map_cons, List.cons_append, List.tail_cons,
      List.map_append, List.mem_cons, List.mem_append, List.mem_map] at hi
    rcases hi with rfl | rfl
      | ((((⟨c, hc, rfl⟩ | ⟨c, hc, rfl⟩) | ⟨c, hc, rfl⟩) | ⟨c, hc, rfl⟩) | ⟨c, ⟨h, -, rfl⟩, rfl⟩)
      | ⟨b, -, rfl⟩
    · rfl
    · rfl
    · cases args : m.arguments with
      | nil =>
          rw [args] at hc
          cases hc
      | cons t ts =>
          rw [args] at hc
          rw [List.mem_singleton.1 hc]
          rfl
    · split at hc
      · rw [List.mem_singleton.1 hc]
        rfl
      · cases hc
    · obtain ⟨j, -, rfl⟩ := Option.map_eq_some_iff.1 (Option.mem_toList.1 hc)
      rfl
    · obtain ⟨r, -, rfl⟩ := Option.map_eq_some_iff.1 (Option.mem_toList.1 hc)
      rfl
    · rfl
    · rfl
  have split : (methodTree m).flagWords
      = m.flags ++ (methodTree m).items.tail.flatMap Item.flagWords := rfl
  rw [split, List.flatMap_eq_nil_iff.2 noFlags, List.append_nil]

/-- The trees of methods are read back from the listing written for them. -/
theorem read_print {ms : List Method} (h : ∀ m ∈ ms, Writable m) :
    read (print ms) = .ok (ms.map methodTree) := by
  refine read_spaced ?_ ?_
  · have formed : Formed (listingDerivation (ms.map methodTree)) := by
      simp only [listingDerivation, formed_node, formed_joined, formed_nil, and_true,
        List.forall_mem_map]
      exact fun m hm => formed_methodTree (h m hm)
    exact formed
  · intro w hw
    rw [List.flatMap_map] at hw
    obtain ⟨m, hm, hw⟩ := List.mem_flatMap.1 hw
    rw [flagWords_methodTree] at hw
    exact (h m hm).flags_fit w hw

end FlowGraph.Listing
