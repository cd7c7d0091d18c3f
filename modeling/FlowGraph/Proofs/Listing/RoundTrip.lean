import FlowGraph.Proofs.Listing.Keys
import FlowGraph.Proofs.Listing.Loading
import FlowGraph.Proofs.Listing.Print

/-!
# Methods read back

A method that can be written is loaded from its tree as it was, except that its regions
have new keys (`load_methodTree`).  So a list of methods is read back from its listing
(`parse_print`).

The two passes undo the tree part by part: the first gives each block back without its
references (`declare_blockTree`), the second adds them (`linkBlock_blockTree`).
-/

namespace FlowGraph.Listing

/-! ## Texts and numbers -/

theorem map_unquote_quoted (ts : List Text) : (ts.map quoted).map unquote = ts := by
  rw [List.map_map]
  exact (List.map_congr_left fun t _ => unquote_quoted t).trans (List.map_id ts)

theorem texts_attributesTree (as : List Text) : texts (attributesTree as) = as := by
  unfold attributesTree
  split
  · next h =>
      rw [h]
      rfl
  · exact map_unquote_quoted as

theorem number_natural {n : Int} (h : IsShort n) :
    number (Text.natural n.toNat) = .ok n.toNat :=
  number_eq_ok_iff.2 ⟨h.2, Text.ofDigits_natural _⟩

/-- What references are resolved against in a method. -/
def scopeOf (name : Text) (m : Method) : Scope := ⟨name, m.blocks.map Block.id⟩

/-- The number of a block finds its position. -/
theorem find_blockDigits {m : Method} (hm : Writable m) (name : Text) {i : Nat}
    (hi : i < m.blocks.length) : (scopeOf name m).find (blockDigits m i) = .ok i := by
  have mem : m.blocks[i] ∈ m.blocks := List.getElem_mem hi
  have id : m.blockId i = m.blocks[i].id := by
    simp [Method.blockId, Method.block, hi]
  have short : IsShort (m.blockId i) := id ▸ hm.ids_short _ mem
  refine Scope.find_eq_ok_iff.2 ⟨_, number_natural short, ?_⟩
  rw [Int.toNat_of_nonneg short.1]
  show (m.blocks.map Block.id).findIdx? _ = some i
  rw [List.findIdx?_eq_some_iff_getElem]
  refine ⟨by simpa using hi, by simp [id], fun j hj => ?_⟩
  have different := List.pairwise_iff_getElem.1 hm.ids_nodup j i (by simp; omega)
    (by simpa using hi) hj
  simpa [id] using different

/-! ## The blocks declared -/

/-- An instruction without its reference. -/
def bareInstruction (i : Instruction) : Instruction := { i with elseTarget := none }

def bareBlock (b : Block) : Block :=
  { b with successors := [], instructions := b.instructions.map bareInstruction }

theorem declare_instructionTree (m : Method) (i : Instruction) :
    (instructionTree m i).declare = .ok (bareInstruction i) := by
  unfold InstructionTree.declare instructionTree
  dsimp only
  rw [Opcode.ofName?_name]
  dsimp only
  rw [unquote_quoted, texts_attributesTree]
  rfl

theorem forall₂_map {α β γ : Type} {R : β → γ → Prop} {f : α → β} {g : α → γ} {as : List α}
    (h : ∀ a ∈ as, R (f a) (g a)) : List.Forall₂ R (as.map f) (as.map g) := by
  rw [List.forall₂_map_left_iff, List.forall₂_map_right_iff, List.forall₂_same]
  exact h

theorem declare_blockTree {m : Method} (hm : Writable m) {b : Block} (hb : b ∈ m.blocks) :
    (blockTree m b).declare = .ok (bareBlock b) := by
  have id := hm.ids_short b hb
  have offset := hm.offsets_short b hb
  refine BlockTree.declare_eq_ok_iff.2 ⟨_, _, _, number_natural id, number_natural offset,
    forall₂_map fun i _ => declare_instructionTree m i, ?_⟩
  rw [Int.toNat_of_nonneg id.1, Int.toNat_of_nonneg offset.1]
  unfold bareBlock
  congr 1
  exact (texts_attributesTree _).symm

/-! ## The references added -/

theorem linkInstruction_instructionTree {m : Method} (hm : Writable m) (name : Text) {b : Block}
    (hb : b ∈ m.blocks) {i : Instruction} (hi : i ∈ b.instructions) :
    (scopeOf name m).linkInstruction { bareBlock b with successors := b.successors }
      (bareInstruction i) (instructionTree m i) = .ok i := by
  have refers := hm.blocks_refer b hb
  refine Scope.linkInstruction_eq_ok_iff.2 ?_
  cases target : i.elseTarget with
  | none =>
      refine Or.inl ⟨by simp [instructionTree, target], ?_⟩
      unfold bareInstruction
      rw [← target]
  | some e =>
      obtain ⟨branch, mem⟩ := refers.instructions i hi e target
      refine Or.inr ⟨blockDigits m e, e, by simp [instructionTree, target], branch,
        find_blockDigits hm name (refers.successors e mem), mem, ?_⟩
      unfold bareInstruction
      rw [← target]

theorem linkBlock_blockTree {m : Method} (hm : Writable m) (name : Text) {b : Block}
    (hb : b ∈ m.blocks) :
    (scopeOf name m).linkBlock (bareBlock b) (blockTree m b) = .ok b := by
  have refers := hm.blocks_refer b hb
  refine Scope.linkBlock_eq_ok_iff.2 ⟨b.successors, b.instructions, ?_, ?_, rfl⟩
  · show List.Forall₂ _ (b.successors.map (blockDigits m)) _
    rw [List.forall₂_map_left_iff, List.forall₂_same]
    exact fun d hd => find_blockDigits hm name (refers.successors d hd)
  · have pairs : (bareBlock b).instructions.zip (blockTree m b).instructions
        = b.instructions.map fun i => (bareInstruction i, instructionTree m i) :=
      List.zip_map'
    rw [pairs, List.forall₂_map_left_iff, List.forall₂_same]
    exact fun i hi => linkInstruction_instructionTree hm name hb hi

/-! ## Regions and clauses -/

/-- The regions of a forest without their keys. -/
def bareForest : RegionForest → RegionForest := Forest.mapLabels (RegionHead.mapKey fun _ => 0)

theorem regionHead_regionLine (h : RegionHead) :
    Scope.regionHead (regionLine h) = h.mapKey fun _ => 0 := by
  unfold Scope.regionHead regionLine RegionHead.mapKey
  dsimp only
  rw [unquote_quoted, texts_attributesTree]

theorem forest_regionItems {m : Method} (hm : Writable m) (name : Text) {f : RegionForest}
    (hf : ∀ i ∈ f.leaves, i < m.blocks.length) :
    (scopeOf name m).forest (regionItems m f) = .ok (bareForest f) := by
  induction f with
  | nil => rfl
  | leaf i rest ih =>
      obtain ⟨hi, hrest⟩ := List.forall_mem_cons.1 hf
      refine bind_eq_ok_iff.2 ⟨i, find_blockDigits hm name hi, ?_⟩
      exact bind_eq_ok_iff.2 ⟨_, ih hrest, rfl⟩
  | node h body rest ihBody ihRest =>
      obtain ⟨hbody, hrest⟩ := List.forall_mem_append.1 hf
      refine bind_eq_ok_iff.2 ⟨_, ihBody hbody, ?_⟩
      refine bind_eq_ok_iff.2 ⟨_, ihRest hrest, ?_⟩
      rw [regionHead_regionLine]
      rfl

theorem region_regionTree {m : Method} (hm : Writable m) (name : Text) {r : Region}
    (hr : r ∈ m.regions) :
    (scopeOf name m).region (regionTree m r) = .ok (r.mapKeys fun _ => 0) := by
  refine bind_eq_ok_iff.2 ⟨_, forest_regionItems hm name (hm.regions_lt r hr), ?_⟩
  show Except.ok (Region.mk (Scope.regionHead (regionLine r.head)) _) = _
  rw [regionHead_regionLine]
  rfl

theorem clause_handlerClause {m : Method} (hm : Writable m) (name : Text) {h : Handler}
    (hh : h ∈ m.handlers) :
    (scopeOf name m).clause (handlerClause m h) = .ok (.handler (h.mapKeys fun _ => 0)) := by
  unfold handlerClause Handler.mapKeys Scope.clause
  dsimp only
  refine bind_eq_ok_iff.2 ⟨h.region.map (Region.mapKeys fun _ => 0), ?_, ?_⟩
  · cases hr : h.region with
    | none => rfl
    | some r =>
        exact bind_eq_ok_iff.2
          ⟨_, region_regionTree hm name (Method.mem_regions_of_handler hh hr), rfl⟩
  · rw [Option.map_some, unquote_quoted]
    rfl

/-- What the clauses of some arguments are resolved to. -/
def argumentItems (ts : List Text) : List Resolved := if ts = [] then [] else [.arguments ts]

/-- What the clauses of a method are resolved to. -/
def clauseItems (m : Method) : List Resolved :=
  .flags m.flags :: .returns m.returnType :: .attributes m.attributes
    :: (argumentItems m.arguments ++ (if m.noCode then [.noCode] else [])
      ++ (m.entry.map Resolved.entry).toList
      ++ (m.region.map fun r => .region (r.mapKeys fun _ => 0)).toList
      ++ m.handlers.map fun h => .handler (h.mapKeys fun _ => 0))

theorem clauses_clausesOf {m : Method} (hm : Writable m) (name : Text) :
    List.Forall₂ (fun c r => (scopeOf name m).clause c = .ok r) (clausesOf m) (clauseItems m) := by
  refine .cons rfl (.cons ?_ (.cons ?_ ?_))
  · show Except.ok (Resolved.returns (unquote (quoted m.returnType))) = _
    rw [unquote_quoted]
  · show Except.ok (Resolved.attributes ((m.attributes.map quoted).map unquote)) = _
    rw [map_unquote_quoted]
  refine List.rel_append (List.rel_append (List.rel_append (List.rel_append ?_ ?_) ?_) ?_) ?_
  · cases m.arguments with
    | nil => exact .nil
    | cons t ts =>
        refine .cons ?_ .nil
        show Except.ok (Resolved.arguments (((t :: ts).map quoted).map unquote)) = _
        rw [map_unquote_quoted]
  · split
    · exact .cons rfl .nil
    · exact .nil
  · cases entry : m.entry with
    | none => exact .nil
    | some i =>
        refine .cons (bind_eq_ok_iff.2 ⟨i, ?_, rfl⟩) .nil
        exact find_blockDigits hm name (hm.entry_lt i entry)
  · cases hr : m.region with
    | none => exact .nil
    | some r =>
        refine .cons (bind_eq_ok_iff.2 ⟨_, ?_, rfl⟩) .nil
        exact region_regionTree hm name (Method.mem_regions_of_root hr)
  · exact forall₂_map fun h hh => clause_handlerClause hm name hh

/-! ## The method assembled -/

def resolvedItems (m : Method) : List Resolved := clauseItems m ++ m.blocks.map .block

/-- Every part of the method is gathered from its items. -/
theorem assemble_resolvedItems {m : Method} (hm : m.listed = List.range m.blocks.length) :
    assemble m.className m.shortId (resolvedItems m) =
      { m with
        region := (m.region.map (Region.mapKeys fun _ => 0)).map (keyRegion 0)
        handlers := keyHandlers ((m.region.map regionCount).getD 0)
          (m.handlers.map (Handler.mapKeys fun _ => 0)) } := by
  obtain ⟨className, shortId, returnType, arguments, flags, attributes, blocks, listed, region,
    handlers, noCode, entry⟩ := m
  dsimp only at hm
  subst hm
  unfold assemble resolvedItems clauseItems argumentItems
  cases noCode <;> cases entry <;> cases region <;> cases arguments <;>
    simp [List.filterMap_map, List.flatMap_map, regionCount, Region.mapKeys]

/-! ## New keys -/

/-- The method with the places of its keys as keys. -/
def rekeyed (m : Method) : Method := m.mapKeys fun k => m.keys.idxOf k

theorem same_rekeyed (m : Method) : m.Same (rekeyed m) :=
  ⟨_, fun _ hj _ hk h => eq_of_idxOf_eq hj hk h, rfl⟩

/-- The method assembled has new keys and is the same otherwise. -/
theorem assemble_eq_rekeyed {m : Method} (hm : m.Linked) :
    assemble m.className m.shortId (resolvedItems m) = rekeyed m := by
  have places := map_idxOf_eq_range' hm.keys_nodup
  have split : m.keys = m.region.toList.flatMap Region.keys
      ++ m.handlerRegions.flatMap Region.keys := List.flatMap_append
  rw [assemble_resolvedItems hm.listed_eq]
  unfold rekeyed Method.mapKeys
  generalize (fun k => m.keys.idxOf k) = f at *
  rw [split, List.map_append, List.length_append, ← List.range'_append_1] at places
  obtain ⟨root, handlers⟩ := List.append_inj places (by simp)
  have count : (m.region.map regionCount).getD 0
      = 0 + (m.region.toList.flatMap Region.keys).length := by
    cases m.region with
    | none => rfl
    | some r => simp [regionCount_eq_length_keys]
  have region : (m.region.map (Region.mapKeys fun _ => 0)).map (keyRegion 0)
      = m.region.map (Region.mapKeys f) := by
    cases hr : m.region with
    | none => rfl
    | some r =>
        rw [hr] at root
        have keys : r.keys.map f = List.range' 0 r.keys.length := by simpa using root
        exact congrArg some (keyRegion_mapKeys keys)
  rw [count, region, keyHandlers_mapKeys handlers]

/-! ## Whole listings -/

/-- What the first pass makes of the items of a method. -/
def declarationsOf (m : Method) : List Declaration :=
  (clausesOf m).map .clause ++ m.blocks.map fun b => .block (bareBlock b) (blockTree m b)

theorem declares_methodTree {m : Method} (hm : Writable m) :
    List.Forall₂ Declares (methodTree m).items (declarationsOf m) := by
  refine List.rel_append (forall₂_map fun c _ => ?_) (forall₂_map fun b hb => ?_)
  · exact Eq.refl (Declaration.clause c)
  · exact ⟨_, declare_blockTree hm hb, rfl⟩

theorem ids_declarationsOf (m : Method) :
    (declarationsOf m).filterMap Declaration.id? = m.blocks.map Block.id := by
  have clauses : ((clausesOf m).map Declaration.clause).filterMap Declaration.id? = [] := by
    rw [List.filterMap_map]
    exact List.filterMap_eq_nil_iff.2 fun _ _ => rfl
  unfold declarationsOf
  rw [List.filterMap_append, clauses, List.filterMap_map, List.nil_append]
  exact congrFun List.filterMap_eq_map _

/-- A method has at most one root region. -/
theorem countP_declarationsOf (m : Method) :
    (declarationsOf m).countP Declaration.isRegion ≤ 1 := by
  have handlers : m.handlers.countP
      (Declaration.isRegion ∘ Declaration.clause ∘ handlerClause m) = 0 :=
    List.countP_eq_zero.2 fun _ _ => Bool.false_ne_true
  have blocks : m.blocks.countP
      (Declaration.isRegion ∘ fun b => Declaration.block (bareBlock b) (blockTree m b)) = 0 :=
    List.countP_eq_zero.2 fun _ _ => Bool.false_ne_true
  unfold declarationsOf clausesOf
  cases m.noCode <;> cases m.entry <;> cases m.region <;> cases m.arguments <;>
    simp [argumentClauses, Declaration.isRegion, Clause.isRegion, List.countP_cons,
      List.countP_map, handlers, blocks]

/-- A method is loaded from its tree with new keys. -/
theorem load_methodTree {m : Method} (hm : Writable m) :
    (methodTree m).load = .ok (rekeyed m) := by
  refine MethodTree.load_eq_ok_iff.2
    ⟨_, resolvedItems m, declares_methodTree hm, ?_, ?_, countP_declarationsOf m, ?_⟩
  · rw [ids_declarationsOf]
    exact hm.ids_nodup
  · rw [ids_declarationsOf]
    refine List.rel_append ?_ (forall₂_map fun b hb => ⟨b, linkBlock_blockTree hm _ hb, rfl⟩)
    rw [List.forall₂_map_left_iff]
    exact clauses_clausesOf hm _
  · rw [← assemble_eq_rekeyed hm.toLinked]
    show _ = assemble (unquote (quoted m.className)) (unquote (quoted m.shortId)) _
    rw [unquote_quoted, unquote_quoted]

/-- Methods are read back from the listing written for them, but for the keys of their
regions. -/
theorem parse_print {ms : List Method} (h : ∀ m ∈ ms, Writable m) :
    ∃ ms', parse (print ms) = .ok ms' ∧ List.Forall₂ Method.Same ms ms' := by
  refine ⟨ms.map rekeyed, parse_eq_ok_iff.2 ⟨_, read_print h, ?_⟩, ?_⟩
  · exact forall₂_map fun m hm => load_methodTree (h m hm)
  · rw [List.forall₂_map_right_iff, List.forall₂_same]
    exact fun m _ => same_rekeyed m

/-- A method with keywords for words and with quotes, backslashes and line breaks. -/
def keywordMethod : Method where
  className := lit "\"\\\n#"
  shortId := []
  returnType := lit "\\\\\""
  arguments := [lit "\n", []]
  flags := [lit "method", lit "_1", lit "insn"]
  attributes := [[]]
  blocks :=
    [{ id := 12, offset := 0, attributes := [lit "\t\\"], successors := [1, 1, 0],
       instructions := [{ opcode := .branch, text := lit "\\n", elseTarget := some 1 }, {}] },
     { id := 0, offset := 7 }]
  listed := [0, 1]
  region := some ⟨{ key := 4, kind := lit "block" },
    .node { key := 9, kind := lit "region", attributes := [lit "\""] } (.leaf 1 .nil) (.leaf 0 .nil)⟩
  handlers := [{ catchType := lit "\"" }, { region := some ⟨{ key := 0 }, .leaf 1 .nil⟩ }]
  entry := some 1

theorem keywordMethod_reread :
    Writable keywordMethod ∧ ∃ ms', parse (print [keywordMethod]) = .ok ms' ∧
      List.Forall₂ Method.Same [keywordMethod] ms' := by
  have writable : Writable keywordMethod := by decide +kernel
  exact ⟨writable, parse_print (List.forall_mem_singleton.2 writable)⟩

end FlowGraph.Listing
