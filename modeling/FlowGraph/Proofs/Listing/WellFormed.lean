import FlowGraph.Proofs.Listing.Keys
import FlowGraph.Proofs.Listing.Loading
import FlowGraph.Proofs.Method.WellFormed

/-!
# Loaded methods are well formed

Each pass over the items of a method keeps what the method needs.  The first declares
blocks with different natural numbers and without references (`BlockTree.declared`).  The
second adds references that it has looked up (`Scope.valid_of_resolves`), and the blocks
keep their numbers (`Scope.ids_of_resolves`).  `assemble` numbers the regions from zero
on, so all keys differ (`keys_assemble`).
-/

namespace FlowGraph.Listing

/-! ## The blocks declared -/

/-- Whether a declaration is of a block with a natural number and no else target yet. -/
def Declaration.Fresh : Declaration → Prop
  | block b _ => 0 ≤ b.id ∧ ∀ i ∈ b.instructions, i.elseTarget = none
  | clause _ => True

theorem BlockTree.declared {tree : BlockTree} {b : Block} (h : tree.declare = .ok b) :
    (Declaration.block b tree).Fresh := by
  obtain ⟨id, offset, is, -, -, his, rfl⟩ := declare_eq_ok_iff.1 h
  refine ⟨Int.natCast_nonneg id, fun i hi => ?_⟩
  obtain ⟨t, -, declared⟩ := exists_of_mem_right his hi
  unfold InstructionTree.declare at declared
  split at declared
  · cases declared
    rfl
  · cases declared

theorem fresh_of_declares {i : Item} {d : Declaration} (h : Declares i d) : d.Fresh := by
  cases i with
  | block tree =>
      obtain ⟨b, declared, rfl⟩ := h
      exact BlockTree.declared declared
  | clause c =>
      cases h
      trivial

/-! ## The references added -/

/-- Whether a resolved item refers only to positions below a bound. -/
def Resolved.Valid (bound : Nat) : Resolved → Prop
  | block b => 0 ≤ b.id ∧ b.Refers bound
  | entry i => i < bound
  | region r => ∀ i ∈ r.blocks, i < bound
  | handler h => ∀ r ∈ h.region, ∀ i ∈ r.blocks, i < bound
  | _ => True

namespace Scope

variable {s : Scope}

theorem refers_of_linkBlock {b b' : Block} {tree : BlockTree}
    (fresh : (Declaration.block b tree).Fresh) (h : s.linkBlock b tree = .ok b') :
    b'.id = b.id ∧ b'.Refers s.ids.length := by
  obtain ⟨ds, is, hds, his, rfl⟩ := linkBlock_eq_ok_iff.1 h
  refine ⟨rfl, ⟨fun d hd => ?_, fun i hi => ?_⟩⟩
  · obtain ⟨t, -, found⟩ := exists_of_mem_right hds hd
    exact lt_of_find found
  · obtain ⟨p, hp, linked⟩ := exists_of_mem_right his hi
    rcases linkInstruction_eq_ok_iff.1 linked with ⟨-, rfl⟩ | ⟨digits, e, -, branch, -, mem, rfl⟩
    · intro e he
      rw [fresh.2 p.1 (List.of_mem_zip hp).1] at he
      cases he
    · rintro _ ⟨⟩
      exact ⟨branch, mem⟩

theorem leaves_lt_of_forest {tree : RegionItems} {f : RegionForest} (h : s.forest tree = .ok f) :
    ∀ i ∈ f.leaves, i < s.ids.length := by
  induction tree generalizing f with
  | nil =>
      cases h
      intro i hi
      cases hi
  | leaf digits rest ih =>
      obtain ⟨j, found, h⟩ := bind_eq_ok_iff.1 h
      obtain ⟨g, hg, ⟨⟩⟩ := bind_eq_ok_iff.1 h
      exact List.forall_mem_cons.2 ⟨lt_of_find found, ih hg⟩
  | node line body rest ihBody ihRest =>
      obtain ⟨g, hg, h⟩ := bind_eq_ok_iff.1 h
      obtain ⟨g', hg', ⟨⟩⟩ := bind_eq_ok_iff.1 h
      exact List.forall_mem_append.2 ⟨ihBody hg, ihRest hg'⟩

theorem blocks_lt_of_region {tree : RegionTree} {r : Region} (h : s.region tree = .ok r) :
    ∀ i ∈ r.blocks, i < s.ids.length := by
  obtain ⟨f, hf, ⟨⟩⟩ := bind_eq_ok_iff.1 h
  exact leaves_lt_of_forest hf

theorem valid_of_clause {c : Clause} {r : Resolved} (h : s.clause c = .ok r) :
    r.Valid s.ids.length := by
  cases c with
  | entry digits =>
      obtain ⟨i, found, ⟨⟩⟩ := bind_eq_ok_iff.1 h
      exact lt_of_find found
  | region tree =>
      obtain ⟨g, hg, ⟨⟩⟩ := bind_eq_ok_iff.1 h
      exact blocks_lt_of_region hg
  | handler catchType tree =>
      obtain ⟨g, hg, ⟨⟩⟩ := bind_eq_ok_iff.1 h
      cases tree with
      | none =>
          cases hg
          intro r hr
          cases hr
      | some tree =>
          obtain ⟨r, hr, ⟨⟩⟩ := bind_eq_ok_iff.1 hg
          rintro _ ⟨⟩
          exact blocks_lt_of_region hr
  | _ =>
      cases h
      trivial

theorem valid_of_resolves {d : Declaration} {r : Resolved} (fresh : d.Fresh)
    (h : s.Resolves d r) : r.Valid s.ids.length := by
  cases d with
  | block b tree =>
      obtain ⟨b', linked, rfl⟩ := h
      obtain ⟨same, refers⟩ := refers_of_linkBlock fresh linked
      exact ⟨same ▸ fresh.1, refers⟩
  | clause c => exact valid_of_clause h

/-- The blocks keep their numbers. -/
theorem ids_of_resolves {ds : List Declaration} {rs : List Resolved}
    (h : List.Forall₂ s.Resolves ds rs) :
    (rs.filterMap fun | .block b => some b | _ => none).map Block.id
      = ds.filterMap Declaration.id? := by
  induction h with
  | nil => rfl
  | @cons d r ds rs hr _ ih =>
      cases d with
      | block b tree =>
          obtain ⟨b', linked, rfl⟩ := hr
          obtain ⟨_, _, -, -, rfl⟩ := linkBlock_eq_ok_iff.1 linked
          exact congrArg (b.id :: ·) ih
      | clause c =>
          cases c with
          | entry digits =>
              obtain ⟨i, -, ⟨⟩⟩ := bind_eq_ok_iff.1 hr
              exact ih
          | region tree =>
              obtain ⟨g, -, ⟨⟩⟩ := bind_eq_ok_iff.1 hr
              exact ih
          | handler catchType tree =>
              obtain ⟨g, -, ⟨⟩⟩ := bind_eq_ok_iff.1 hr
              exact ih
          | _ =>
              cases hr
              exact ih

end Scope

/-- The regions of a method have the keys from zero on. -/
theorem keys_assemble (className shortId : Text) (items : List Resolved) :
    ∃ n, (assemble className shortId items).keys = List.range' 0 n := by
  unfold Method.keys Method.regions Method.handlerRegions assemble
  dsimp only
  generalize (items.filterMap _).head? = root
  generalize items.filterMap _ = handlers
  rw [List.flatMap_append, keys_keyHandlers]
  generalize ((handlers.filterMap Handler.region).flatMap Region.keys).length = others
  cases root with
  | none => exact ⟨_, rfl⟩
  | some r =>
      refine ⟨r.keys.length + others, ?_⟩
      have first : (Option.map (keyRegion 0) (some r)).toList.flatMap Region.keys
          = List.range' 0 r.keys.length := by
        rw [← keys_keyRegion]
        exact List.append_nil _
      rw [first, ← List.range'_append_1, Nat.zero_add, ← regionCount_eq_length_keys]
      rfl

/-! ## The methods loaded -/

theorem mem_of_mem_filterMap {α β : Type} {f : α → Option β} (make : β → α)
    (inv : ∀ a b, f a = some b → a = make b) {as : List α} {b : β} (h : b ∈ as.filterMap f) :
    make b ∈ as := by
  obtain ⟨a, ha, same⟩ := List.mem_filterMap.1 h
  exact inv a b same ▸ ha

/-- The regions of a method are those of its items with new keys. -/
theorem exists_of_mem_regions_assemble {className shortId : Text} {items : List Resolved}
    {r : Region} (h : r ∈ (assemble className shortId items).regions) :
    ∃ k r₀, r = keyRegion k r₀ ∧
      (Resolved.region r₀ ∈ items ∨ ∃ handler, Resolved.handler handler ∈ items
        ∧ handler.region = some r₀) := by
  rcases List.mem_append.1 h with h | h
  · obtain ⟨r₀, root, rfl⟩ := Option.map_eq_some_iff.1 (Option.mem_toList.1 h)
    refine ⟨0, r₀, rfl, Or.inl ?_⟩
    refine mem_of_mem_filterMap .region (fun r i h => ?_) (List.mem_of_head? root)
    cases r <;> cases h
    rfl
  · obtain ⟨k, handler, mem, r₀, found, rfl⟩ := exists_of_mem_keyHandlers h
    refine ⟨k, r₀, rfl, Or.inr ⟨handler, ?_, found⟩⟩
    refine mem_of_mem_filterMap .handler (fun r i h => ?_) mem
    cases r <;> cases h
    rfl

/-- The references of a loaded method fit its table. -/
theorem MethodTree.linked_of_load {tree : MethodTree} {m : Method} (h : tree.load = .ok m) :
    m.Linked := by
  obtain ⟨ds, rs, declares, nodup, resolves, -, rfl⟩ := load_eq_ok_iff.1 h
  have ids := Scope.ids_of_resolves resolves
  have valid : ∀ r ∈ rs, r.Valid (ds.filterMap Declaration.id?).length := by
    intro r hr
    obtain ⟨d, hd, resolved⟩ := exists_of_mem_right resolves hr
    obtain ⟨i, -, declared⟩ := exists_of_mem_right declares hd
    exact Scope.valid_of_resolves (fresh_of_declares declared) resolved
  have length : (ds.filterMap Declaration.id?).length
      = (rs.filterMap fun | .block b => some b | _ => none).length := by
    rw [← ids, List.length_map]
  rw [length] at valid
  have block : ∀ b ∈ (assemble (unquote tree.className) (unquote tree.shortId) rs).blocks,
      (Resolved.block b).Valid (rs.filterMap fun | .block b => some b | _ => none).length := by
    intro b hb
    refine valid _ (mem_of_mem_filterMap .block (fun r b h => ?_) hb)
    cases r <;> cases h
    rfl
  have entry : ∀ i ∈ (assemble (unquote tree.className) (unquote tree.shortId) rs).entry,
      i < (assemble (unquote tree.className) (unquote tree.shortId) rs).blocks.length := by
    intro i hi
    refine valid _ (mem_of_mem_filterMap .entry (fun r i h => ?_) (List.mem_of_getLast? hi))
    cases r <;> cases h
    rfl
  have regions : ∀ r ∈ (assemble (unquote tree.className) (unquote tree.shortId) rs).regions,
      ∀ i ∈ r.blocks,
        i < (assemble (unquote tree.className) (unquote tree.shortId) rs).blocks.length := by
    intro r hr
    obtain ⟨k, r₀, rfl, (root | ⟨handler, mem, found⟩)⟩ := exists_of_mem_regions_assemble hr
    · rw [blocks_keyRegion]
      exact valid _ root
    · rw [blocks_keyRegion]
      exact valid _ mem r₀ found
  exact {
    id_nonneg := fun b hb => (block b hb).1
    ids_nodup := by
      show ((rs.filterMap fun | .block b => some b | _ => none).map Block.id).Nodup
      rw [ids]
      exact nodup
    listed_eq := rfl
    blocks_refer := fun b hb => (block b hb).2
    entry_lt := entry
    regions_lt := regions
    keys_nodup := by
      obtain ⟨n, keys⟩ := keys_assemble (unquote tree.className) (unquote tree.shortId) rs
      rw [keys]
      exact List.nodup_range' }

/-- The references of a method in a parsed text fit its table. -/
theorem linked_of_parse {text : Text} {ms : List Method} (h : parse text = .ok ms) {m : Method}
    (hm : m ∈ ms) : m.Linked := by
  obtain ⟨trees, -, loads⟩ := parse_eq_ok_iff.1 h
  obtain ⟨tree, -, loaded⟩ := exists_of_mem_right loads hm
  exact MethodTree.linked_of_load loaded

/-- Every method of a parsed text is well formed. -/
theorem parse_wellFormed {text : Text} {ms : List Method} (h : parse text = .ok ms) :
    ∀ m ∈ ms, m.WellFormed := by
  obtain ⟨trees, -, loads⟩ := parse_eq_ok_iff.1 h
  intro m hm
  obtain ⟨tree, -, loaded⟩ := exists_of_mem_right loads hm
  exact (MethodTree.linked_of_load loaded).wellFormed

/-- A listing in which blocks are referred to before they are declared. -/
def forwardListing : Text := Text.unlines
  [lit "method \"p.A\" \"f()V\" \x7b entry 2 region Loop \"\" \x7b block 1 region If \"x\" \x7b block 2 \x7d \x7d",
   lit "handler \x7b region Catch \"\" \x7b block 2 \x7d \x7d",
   lit "block 1 @ 0 -> 2, 1 \x7b insn IF \"x\" else 1 \x7d block 2 @ 16 \x7b \x7d \x7d"]

def forwardMethod : Method where
  className := lit "p.A"
  shortId := lit "f()V"
  blocks :=
    [{ id := 1, offset := 0, successors := [1, 0],
       instructions := [{ opcode := .branch, text := lit "x", elseTarget := some 0 }] },
     { id := 2, offset := 16 }]
  listed := [0, 1]
  region := some ⟨{ key := 0, kind := lit "Loop" },
    .leaf 0 (.node { key := 1, kind := lit "If", description := lit "x" } (.leaf 1 .nil) .nil)⟩
  handlers := [{ region := some ⟨{ key := 2, kind := lit "Catch" }, .leaf 1 .nil⟩ }]
  entry := some 1

theorem forwardMethod_wellFormed :
    parse forwardListing = .ok [forwardMethod] ∧ forwardMethod.WellFormed := by
  have parsed : parse forwardListing = .ok [forwardMethod] :=
    eq_ok_of_toOption (by decide +kernel)
  exact ⟨parsed, parse_wellFormed parsed forwardMethod List.mem_cons_self⟩

end FlowGraph.Listing
