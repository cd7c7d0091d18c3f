import FlowGraph.Listing.Tree
import FlowGraph.Proofs.Listing.Grammar

/-!
# Trees as derivations

A tree of a listing holds what differs from one derivation to another and leaves out
keywords, signs and commas.  `MethodTree.derivation` puts them back.  The derivations of a
phrase are exactly those of its trees (`denotes_method`, `denotes_listing`), and the
tokens of a tree are the leaves of its derivation.
-/

namespace FlowGraph.Listing

open Pattern (keyword furtherOnes methodItem regionItem)

/-! ## The derivation of a tree -/

def Keyword.token (k : Keyword) : Token := ⟨.keyword k, k.word⟩

/-- Tokens of one terminal, each behind a comma. -/
def further (t : Terminal) : List Text → Derivation :=
  joined fun w => .leaf ⟨.comma, [',']⟩ (.leaf ⟨t, w⟩ .nil)

/-- What stands between the brackets of a list of attributes. -/
def stringsDerivation : List Text → Derivation
  | [] => .nil
  | s :: ss => .leaf ⟨.string, s⟩ (further .string ss)

def attributesDerivation (as : List Text) : Derivation :=
  .node .attrList (.leaf ⟨.lsqb, ['[']⟩ (stringsDerivation as ++ .leaf ⟨.rsqb, [']']⟩ .nil)) .nil

/-- A list of attributes that may be missing. -/
def attributesDerivation? (as : Option (List Text)) : Derivation :=
  (as.map attributesDerivation).getD .nil

/-- The successors of a block, of which there may be none. -/
def successorsDerivation : List Text → Derivation
  | [] => .nil
  | d :: ds => .node .successors (.leaf ⟨.arrow, ['-', '>']⟩ (.leaf ⟨.int, d⟩ (further .int ds))) .nil

/-- An else target, which may be missing. -/
def elseDerivation? : Option Text → Derivation
  | none => .nil
  | some d => .node .elseTarget (.leaf Keyword.elseTo.token (.leaf ⟨.int, d⟩ .nil)) .nil

def InstructionTree.derivation (i : InstructionTree) : Derivation :=
  .node .insn (.leaf Keyword.insn.token (.leaf ⟨.name, i.opcode⟩ (.leaf ⟨.string, i.text⟩
    (elseDerivation? i.elseTarget ++ attributesDerivation? i.attributes)))) .nil

def BlockTree.derivation (b : BlockTree) : Derivation :=
  .node .block (.leaf Keyword.block.token (.leaf ⟨.int, b.id⟩ (.leaf ⟨.atSign, ['@']⟩
    (.leaf ⟨.int, b.offset⟩ (successorsDerivation b.successors
      ++ (attributesDerivation? b.attributes ++ .leaf ⟨.lbrace, ['{']⟩
        (joined InstructionTree.derivation b.instructions ++ .leaf ⟨.rbrace, ['}']⟩ .nil))))))) .nil

/-- A region of which the body is derived already. -/
def regionDerivation (line : RegionLine) (body : Derivation) : Derivation :=
  .node .region (.leaf Keyword.region.token (.leaf ⟨.name, line.kind⟩
    (.leaf ⟨.string, line.description⟩ (attributesDerivation? line.attributes
      ++ .leaf ⟨.lbrace, ['{']⟩ (body ++ .leaf ⟨.rbrace, ['}']⟩ .nil))))) .nil

/-- A block named inside a region. -/
def referenceDerivation (d : Text) : Derivation :=
  .node .blockRef (.leaf Keyword.block.token (.leaf ⟨.int, d⟩ .nil)) .nil

/-- The blocks and regions inside a region. -/
def itemsDerivation : RegionItems → Derivation
  | .nil => .nil
  | .leaf d rest => referenceDerivation d ++ itemsDerivation rest
  | .node line body rest => regionDerivation line (itemsDerivation body) ++ itemsDerivation rest

def RegionTree.derivation (r : RegionTree) : Derivation :=
  regionDerivation r.line (itemsDerivation r.body)

def stringDerivation? (s : Option Text) : Derivation :=
  (s.map fun w => .leaf ⟨.string, w⟩ .nil).getD .nil

def Clause.derivation : Clause → Derivation
  | flags names =>
      .node .flags (.leaf Keyword.flags.token (joined (fun w => .leaf ⟨.name, w⟩ .nil) names)) .nil
  | returns type => .node .returns (.leaf Keyword.returns.token (.leaf ⟨.string, type⟩ .nil)) .nil
  | args first more =>
      .node .args (.leaf Keyword.args.token (.leaf ⟨.string, first⟩ (further .string more))) .nil
  | attrs as => .node .attrs (.leaf Keyword.attrs.token (attributesDerivation as)) .nil
  | nocode => .node .nocode (.leaf Keyword.nocode.token .nil) .nil
  | entry d => .node .entry (.leaf Keyword.entry.token (.leaf ⟨.int, d⟩ .nil)) .nil
  | region r => r.derivation
  | handler catchType r =>
      .node .handler (.leaf Keyword.handler.token (stringDerivation? catchType
        ++ .leaf ⟨.lbrace, ['{']⟩ ((r.map RegionTree.derivation).getD .nil
          ++ .leaf ⟨.rbrace, ['}']⟩ .nil))) .nil

def Item.derivation : Item → Derivation
  | block b => b.derivation
  | clause c => c.derivation

def MethodTree.derivation (m : MethodTree) : Derivation :=
  .node .method (.leaf Keyword.method.token (.leaf ⟨.string, m.className⟩
    (.leaf ⟨.string, m.shortId⟩ (.leaf ⟨.lbrace, ['{']⟩ (joined Item.derivation m.items
      ++ .leaf ⟨.rbrace, ['}']⟩ .nil))))) .nil

def listingDerivation (trees : List MethodTree) : Derivation :=
  .node .start (joined MethodTree.derivation trees) .nil

/-! ## The derivations of a phrase -/

theorem denotes_furtherOnes {t : Terminal} (ht : t.text? = none) :
    Denotes (furtherOnes t) (further t) := by
  have one := Denotes.fixed_seq (t := .comma) rfl (Denotes.free_seq ht Denotes.empty)
  exact (one.transfer (fun w => ⟨(w, ()), rfl⟩) fun x => ⟨x.1, rfl⟩).many

theorem denotes_attrList : Denotes (.symbol .attrList) attributesDerivation := by
  have strings : Denotes (.optional (.sequence [.terminal .string, furtherOnes .string]))
      stringsDerivation := by
    have one := Denotes.free_seq (t := .string) rfl
      ((denotes_furtherOnes (t := .string) rfl).seq Denotes.empty)
    refine one.optional.transfer (fun ss => ?_) (fun o => ?_)
    · cases ss with
      | nil => exact ⟨none, rfl⟩
      | cons s ss => exact ⟨some (s, ss, ()), congrArg _ (Forest.append_nil _)⟩
    · cases o with
      | none => exact ⟨[], rfl⟩
      | some x => exact ⟨x.1 :: x.2.1, congrArg _ (Forest.append_nil _).symm⟩
  have list := Denotes.fixed_seq (t := .lsqb) rfl
    (strings.seq (Denotes.fixed_seq (t := .rsqb) rfl Denotes.empty))
  exact (Denotes.symbol (s := .attrList) list).transfer (fun as => ⟨(as, ()), rfl⟩) fun x => ⟨x.1, rfl⟩

theorem denotes_attrList? : Denotes (.optional (.symbol .attrList)) attributesDerivation? :=
  denotes_attrList.optional

theorem denotes_successors : Denotes (.optional (.symbol .successors)) successorsDerivation := by
  have one := Denotes.fixed_seq (t := .arrow) rfl (Denotes.free_seq (t := .int) rfl
    ((denotes_furtherOnes (t := .int) rfl).seq Denotes.empty))
  refine (Denotes.symbol (s := .successors) one).optional.transfer (fun ds => ?_) (fun o => ?_)
  · cases ds with
    | nil => exact ⟨none, rfl⟩
    | cons d ds =>
        refine ⟨some (d, ds, ()), ?_⟩
        simp [successorsDerivation]
  · cases o with
    | none => exact ⟨[], rfl⟩
    | some x =>
        refine ⟨x.1 :: x.2.1, ?_⟩
        simp [successorsDerivation]

theorem denotes_elseTarget : Denotes (.optional (.symbol .elseTarget)) elseDerivation? := by
  have one := Denotes.fixed_seq (t := .keyword .elseTo) rfl
    (Denotes.free_seq (t := .int) rfl Denotes.empty)
  refine (Denotes.symbol (s := .elseTarget) one).optional.transfer (fun o => ?_) (fun o => ?_)
  · cases o with
    | none => exact ⟨none, rfl⟩
    | some d => exact ⟨some (d, ()), rfl⟩
  · cases o with
    | none => exact ⟨none, rfl⟩
    | some x => exact ⟨some x.1, rfl⟩

theorem denotes_insn : Denotes (.symbol .insn) InstructionTree.derivation := by
  have line := Denotes.fixed_seq (t := .keyword .insn) rfl (Denotes.free_seq (t := .name) rfl
    (Denotes.free_seq (t := .string) rfl
      (denotes_elseTarget.seq (denotes_attrList?.seq Denotes.empty))))
  refine (Denotes.symbol (s := .insn) line).transfer (fun i => ?_) (fun x => ?_)
  · refine ⟨(i.opcode, i.text, i.elseTarget, i.attributes, ()), ?_⟩
    simp [InstructionTree.derivation, Keyword.token]
  · refine ⟨⟨x.1, x.2.1, x.2.2.1, x.2.2.2.1⟩, ?_⟩
    simp [InstructionTree.derivation, Keyword.token]

theorem denotes_block : Denotes (.symbol .block) BlockTree.derivation := by
  have whole := Denotes.fixed_seq (t := .keyword .block) rfl (Denotes.free_seq (t := .int) rfl
    (Denotes.fixed_seq (t := .atSign) rfl (Denotes.free_seq (t := .int) rfl
      (denotes_successors.seq (denotes_attrList?.seq (Denotes.fixed_seq (t := .lbrace) rfl
        (denotes_insn.many.seq (Denotes.fixed_seq (t := .rbrace) rfl Denotes.empty))))))))
  refine (Denotes.symbol (s := .block) whole).transfer (fun b => ?_) (fun x => ?_)
  · exact ⟨(b.id, b.offset, b.successors, b.attributes, b.instructions, ()), rfl⟩
  · exact ⟨⟨x.1, x.2.1, x.2.2.1, x.2.2.2.1, x.2.2.2.2.1⟩, rfl⟩

theorem denotes_region_of {β : Type} {e : β → Derivation} (h : Denotes (.many regionItem) e) :
    Denotes (.symbol .region) fun x : RegionLine × β => regionDerivation x.1 (e x.2) := by
  have whole := Denotes.fixed_seq (t := .keyword .region) rfl (Denotes.free_seq (t := .name) rfl
    (Denotes.free_seq (t := .string) rfl (denotes_attrList?.seq
      (Denotes.fixed_seq (t := .lbrace) rfl
        (h.seq (Denotes.fixed_seq (t := .rbrace) rfl Denotes.empty))))))
  refine (Denotes.symbol (s := .region) whole).transfer (fun x => ?_) (fun x => ?_)
  · exact ⟨(x.1.kind, x.1.description, x.1.attributes, x.2, ()), rfl⟩
  · exact ⟨(⟨x.1, x.2.1, x.2.2.1⟩, x.2.2.2.1), rfl⟩

theorem denotes_blockRef : Denotes (.symbol .blockRef) referenceDerivation := by
  have whole := Denotes.fixed_seq (t := .keyword .block) rfl
    (Denotes.free_seq (t := .int) rfl Denotes.empty)
  exact (Denotes.symbol (s := .blockRef) whole).transfer (fun d => ⟨(d, ()), rfl⟩)
    fun x => ⟨x.1, rfl⟩

/-- The derivations of the body of a region.  A region inside it has fewer tokens, so its
own body is known by induction on their number. -/
theorem denotes_regionItems : Denotes (.many regionItem) itemsDerivation := by
  intro f
  constructor
  · intro h
    induction hn : f.leaves.length using Nat.strongRecOn generalizing f with
    | ind n ih =>
        cases h with
        | done => exact ⟨.nil, rfl⟩
        | @more _ _ g hf hg =>
            cases hf with
            | left hf =>
                obtain ⟨⟨line, body, hbody⟩, rfl⟩ := (denotes_region_of (.self _) _).1 hf
                simp only [regionDerivation, Forest.leaves_append, Forest.leaves,
                  List.length_append, List.length_cons, List.length_nil] at hn
                obtain ⟨items, rfl⟩ := ih body.leaves.length (by omega) body hbody rfl
                obtain ⟨rest, rfl⟩ := ih g.leaves.length (by omega) g hg rfl
                exact ⟨.node line items rest, rfl⟩
            | right hf =>
                obtain ⟨d, rfl⟩ := (denotes_blockRef _).1 hf
                simp only [referenceDerivation, Forest.leaves_append, Forest.leaves,
                  List.length_append, List.length_cons, List.length_nil] at hn
                obtain ⟨rest, rfl⟩ := ih g.leaves.length (by omega) g hg rfl
                exact ⟨.leaf d rest, rfl⟩
  · rintro ⟨items, rfl⟩
    induction items with
    | nil => exact .done
    | leaf d rest ih => exact .more (.right ((denotes_blockRef _).2 ⟨d, rfl⟩)) ih
    | node line body rest ihBody ihRest =>
        exact .more (.left ((denotes_region_of (.self _) _).2 ⟨(line, ⟨_, ihBody⟩), rfl⟩)) ihRest

theorem denotes_region : Denotes (.symbol .region) RegionTree.derivation :=
  (denotes_region_of denotes_regionItems).transfer (fun r => ⟨(r.line, r.body), rfl⟩)
    fun x => ⟨⟨x.1, x.2⟩, rfl⟩

theorem denotes_handler : Denotes (.symbol .handler) (fun x : Option Text × Option RegionTree =>
    Clause.derivation (.handler x.1 x.2)) := by
  have type : Denotes (.optional (.terminal .string)) stringDerivation? :=
    (Denotes.free (t := .string) rfl).optional
  have whole := Denotes.fixed_seq (t := .keyword .handler) rfl (type.seq
    (Denotes.fixed_seq (t := .lbrace) rfl (denotes_region.optional.seq
      (Denotes.fixed_seq (t := .rbrace) rfl Denotes.empty))))
  exact (Denotes.symbol (s := .handler) whole).transfer (fun x => ⟨(x.1, x.2, ()), rfl⟩)
    fun x => ⟨(x.1, x.2.1), rfl⟩

theorem denotes_methodItem : Denotes methodItem Item.derivation := by
  have flags := Denotes.symbol (s := .flags) (Denotes.fixed_seq (t := .keyword .flags) rfl
    ((Denotes.free (t := .name) rfl).many.seq Denotes.empty))
  have returns := Denotes.symbol (s := .returns) (Denotes.fixed_seq (t := .keyword .returns) rfl
    (Denotes.free_seq (t := .string) rfl Denotes.empty))
  have args := Denotes.symbol (s := .args) (Denotes.fixed_seq (t := .keyword .args) rfl
    (Denotes.free_seq (t := .string) rfl
      ((denotes_furtherOnes (t := .string) rfl).seq Denotes.empty)))
  have attrs := Denotes.symbol (s := .attrs) (Denotes.fixed_seq (t := .keyword .attrs) rfl
    (denotes_attrList.seq Denotes.empty))
  have nocode := Denotes.symbol (s := .nocode) (Denotes.fixed (t := .keyword .nocode) rfl)
  have entry := Denotes.symbol (s := .entry) (Denotes.fixed_seq (t := .keyword .entry) rfl
    (Denotes.free_seq (t := .int) rfl Denotes.empty))
  refine (flags.alt <| returns.alt <| args.alt <| attrs.alt <| nocode.alt <| entry.alt <|
    denotes_block.alt <| denotes_region.alt denotes_handler).transfer (fun i => ?_) (fun x => ?_)
  · cases i with
    | block b => exact ⟨.inr (.inr (.inr (.inr (.inr (.inr (.inl b)))))), rfl⟩
    | clause c =>
        cases c with
        | flags names =>
            refine ⟨.inl (names, ()), ?_⟩
            simp [Item.derivation, Clause.derivation, Keyword.token]
        | returns type => exact ⟨.inr (.inl (type, ())), rfl⟩
        | args first more =>
            refine ⟨.inr (.inr (.inl (first, more, ()))), ?_⟩
            simp [Item.derivation, Clause.derivation, Keyword.token]
        | attrs as => exact ⟨.inr (.inr (.inr (.inl (as, ())))), rfl⟩
        | nocode => exact ⟨.inr (.inr (.inr (.inr (.inl ())))), rfl⟩
        | entry d => exact ⟨.inr (.inr (.inr (.inr (.inr (.inl (d, ())))))), rfl⟩
        | region r => exact ⟨.inr (.inr (.inr (.inr (.inr (.inr (.inr (.inl r))))))), rfl⟩
        | handler c r =>
            exact ⟨.inr (.inr (.inr (.inr (.inr (.inr (.inr (.inr (c, r)))))))), rfl⟩
  · rcases x with x | x | x | x | x | x | b | r | x
    · refine ⟨.clause (.flags x.1), ?_⟩
      simp [Item.derivation, Clause.derivation, Keyword.token]
    · exact ⟨.clause (.returns x.1), rfl⟩
    · refine ⟨.clause (.args x.1 x.2.1), ?_⟩
      simp [Item.derivation, Clause.derivation, Keyword.token]
    · exact ⟨.clause (.attrs x.1), rfl⟩
    · exact ⟨.clause .nocode, rfl⟩
    · exact ⟨.clause (.entry x.1), rfl⟩
    · exact ⟨.block b, rfl⟩
    · exact ⟨.clause (.region r), rfl⟩
    · exact ⟨.clause (.handler x.1 x.2), rfl⟩

theorem denotes_method : Denotes (.symbol .method) MethodTree.derivation := by
  have whole := Denotes.fixed_seq (t := .keyword .method) rfl (Denotes.free_seq (t := .string) rfl
    (Denotes.free_seq (t := .string) rfl (Denotes.fixed_seq (t := .lbrace) rfl
      (denotes_methodItem.many.seq (Denotes.fixed_seq (t := .rbrace) rfl Denotes.empty)))))
  exact (Denotes.symbol (s := .method) whole).transfer
    (fun m => ⟨(m.className, m.shortId, m.items, ()), rfl⟩) fun x => ⟨⟨x.1, x.2.1, x.2.2.1⟩, rfl⟩

/-- The derivations of a listing are those of the lists of its methods. -/
theorem denotes_listing : Denotes (.symbol .start) listingDerivation :=
  Denotes.symbol (s := .start) denotes_method.many

end FlowGraph.Listing
