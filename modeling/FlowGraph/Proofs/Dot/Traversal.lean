import FlowGraph.Method.Outline
import FlowGraph.Proofs.Dot.Operations
import FlowGraph.Proofs.Method.RegionGraph

/-!
# Regions in the outline and in the drawing

The outline of a region and its drawing are made by two recursions over the tree that the region
unfolds to.  Both go through the places of the tree in order.  At each the outline has one line
(`forestOutline_eq_map`) and the drawing tells the same block by its number, or the same region
by a cluster with its caption (`tells_forestLines`).  A line of either stands as deep as its place.

The clusters have the numbers that their regions have after the whole drawing, so two clusters
have one number exactly if they are one region at two places.
-/

namespace FlowGraph

/-- What a line of the outline says about a block or a region. -/
def RegionGraph.outlined (g : RegionGraph) (m : Method) : RegionChild → Text
  | .block i => lit "block " ++ lit (toString (m.blocks.getD i .blank).id)
  | .region k => (g.head k).kind ++ lit ": " ++ (g.head k).description

theorem RegionGraph.outlined_block (g : RegionGraph) (m : Method) (i : Nat) :
    g.outlined m (.block i) = lit "block " ++ Text.integer (m.blockId i) := by
  rw [Text.integer_eq_toString]
  rfl

/-- The outline of a forest has a line for each of its places, as deep as the place. -/
theorem forestOutline_eq_map {g : RegionGraph} {cs : List RegionChild} {f : RegionForest}
    (h : g.Unfolds cs f) (m : Method) (base n : Nat) :
    m.forestOutline (base + 1) f =
      (forestPlaces n f).map fun e => indented (base + e.1.length) (g.outlined m e.2) := by
  induction h generalizing base n with
  | nil => rfl
  | block _ ih =>
      rw [Method.forestOutline, ih base (n + 1), forestPlaces, List.map_cons, g.outlined_block]
      rfl
  | region _ _ ihBody ih =>
      rw [Method.forestOutline, ihBody (base + 1) 0, ih base (n + 1), forestPlaces,
        List.map_append, List.map_cons, List.map_map, List.cons_append]
      refine congrArg₂ _ rfl (congrArg (· ++ _) (List.map_congr_left fun e _ => ?_))
      rw [Nat.add_right_comm]
      rfl

namespace Dot

/-! ## Lines of a drawing -/

/-- Whether a statement tells a block or a region. -/
def NodeStatement.tells : NodeStatement → Bool
  | openCluster .. | clusterLabel _ | block .. => true
  | clusterStyle | closeCluster => false

section

variable (g : RegionGraph) (s : InstructionStyle) (m : Method)

/-- The lines of a drawing that tell a block or a region: the number of the block with its
caption, or the kind of the region with the number of its cluster, and its caption. -/
def drawnChild (n : Numbering) (depth : Nat) : RegionChild → List NodeLine
  | .block i =>
      let b := m.blocks.getD i .blank
      [⟨depth, .block b.id false (blockCaption s b)⟩]
  | .region k =>
      [⟨depth, .openCluster (g.head k).kind (n.number k)⟩,
       ⟨depth + 1, .clusterLabel (clusterCaption (g.head k))⟩]

theorem drawnChild_block (n : Numbering) (depth i : Nat) :
    drawnChild g s m n depth (.block i) = [blockLine s m depth false i] := by
  rw [drawnChild, ← blockLabel_eq]
  rfl

/-- The lines of a forest tell what stands at its places, as deep as the place.  The numbers of
clusters are those after the forest, and after whatever is named later. -/
theorem tells_forestLines {g : RegionGraph} {cs : List RegionChild} {f : RegionForest}
    (h : g.Unfolds cs f) (base k : Nat) (n : Numbering) (ts : List Subject) :
    (forestLines s m (base + 1) n f).filter (·.statement.tells) =
      (forestPlaces k f).flatMap fun e =>
        drawnChild g s m ((n.noteForest f).after ts) (base + e.1.length) e.2 := by
  induction h generalizing base k n ts with
  | nil => rfl
  | block _ ih =>
      rw [forestPlaces, List.flatMap_cons, drawnChild_block]
      exact congrArg (_ :: ·) (ih base (k + 1) n ts)
  | @region key cs body later _ _ ihBody ih =>
      let r := g.head key
      let noted := n.note r.key
      let final := (n.noteForest (.node r body later)).after ts
      have inside := ihBody (base + 1) 0 noted (later.labels.map RegionHead.subject ++ ts)
      have outside := ih base (k + 1) (noted.noteForest body) ts
      rw [Numbering.after_append, ← Numbering.noteForest_eq] at inside
      have kept : final.number key = n.number key := n.number_noteForest_node r body later ts
      have opening : (openingLines (base + 1) n r).filter (·.statement.tells)
          = drawnChild g s m final (base + 1) (.region key) := by
        rw [drawnChild, kept, ← clusterLabel_eq]
        rfl
      have closing (ls : List NodeLine) :
          (⟨base + 1, .closeCluster⟩ :: ls : List NodeLine).filter (·.statement.tells)
            = ls.filter (·.statement.tells) := rfl
      rw [forestLines, List.filter_append, List.filter_append, opening, closing, inside, outside,
        forestPlaces, List.flatMap_append, List.flatMap_cons, List.flatMap_map]
      refine congrArg (_ ++ · ++ _) (List.flatMap_congr fun e _ => ?_)
      rw [Nat.add_right_comm]
      rfl

end

/-! ## Numbers -/

/-- A region that is named has been named afterwards. -/
theorem Numbering.mem_seen_after {n : Numbering} {ts : List Subject} {key : Nat} {kind : Text}
    (h : .region key kind ∈ ts) : key ∈ (n.after ts).seen := by
  rw [Numbering.seen_after, List.mem_append, List.mem_eraseDups, List.removeAll, List.mem_filter]
  by_cases mem : key ∈ n.seen
  · exact .inl mem
  · exact .inr ⟨List.mem_filterMap.2 ⟨_, h, rfl⟩, by simpa using mem⟩

/-- Regions that stand in a forest have one number after it only if they are the same. -/
theorem eq_of_number_noteForest_eq {f : RegionForest} {n : Numbering} {j k : Nat}
    (hj : j ∈ f.labels.map RegionHead.key) (hk : k ∈ f.labels.map RegionHead.key)
    (h : (n.noteForest f).number j = (n.noteForest f).number k) : j = k := by
  have noted : ∀ {i}, i ∈ f.labels.map RegionHead.key → i ∈ (n.noteForest f).seen := by
    intro i hi
    obtain ⟨r, mem, rfl⟩ := List.mem_map.1 hi
    have named : Subject.region r.key r.kind ∈ f.labels.map RegionHead.subject :=
      List.mem_map.2 ⟨r, mem, rfl⟩
    rw [Numbering.noteForest_eq]
    exact Numbering.mem_seen_after named
  exact eq_of_idxOf_eq (noted hj) (noted hk) h

/-! ## Regions of a graph -/

/-- What the traversals of a region have to do, which unfolds to a tree. -/
structure Traversed (g : RegionGraph) (k : Nat) (r : Region) : Prop where
  /-- The places of the tree stand in the order of their paths, so that a region comes before
  all that it holds. -/
  ordered : r.places.Pairwise fun e e' => e.1 < e'.1
  /-- They are the paths that the graph has from the region. -/
  mem_iff : ∀ p c, (p, c) ∈ r.places ↔ g.at? (.region k) p = some c
  /-- The blocks of the region are those at its places, in order and with repetitions. -/
  blocks : r.blocks = r.places.filterMap fun e => e.2.block?
  /-- The outline has one line for each place, two blanks deeper for each region around it. -/
  outline : ∀ m : Method, m.regionOutline (some r) =
    r.places.map fun e => List.replicate (2 * (2 + e.1.length)) ' ' ++ g.outlined m e.2
  /-- The drawing tells what stands at each place, a tab deeper for each region around it. -/
  drawing : ∀ s m (d : Drawing), ∃ added, (d.addRegion s m r).nodes = d.nodes ++ added ∧
    added.filter (·.statement.tells) = r.places.flatMap fun e =>
      drawnChild g s m (d.addRegion s m r).numbering (1 + e.1.length) e.2
  /-- Clusters of different regions have different numbers. -/
  numbers : ∀ s m (d : Drawing) p p' j j', (p, .region j) ∈ r.places → (p', .region j') ∈ r.places →
    (d.addRegion s m r).numbering.number j = (d.addRegion s m r).numbering.number j' → j = j'

section

variable {g : RegionGraph} {k : Nat} {r : Region}

theorem tells_addRegion (h : g.IsUnfolding k r) (s : InstructionStyle) (m : Method) (d : Drawing) :
    (forestLines s m topDepth d.numbering r.toForest).filter (·.statement.tells) =
      r.places.flatMap fun e =>
        drawnChild g s m (d.addRegion s m r).numbering (topDepth + e.1.length) e.2 := by
  have numbering : (d.addRegion s m r).numbering = d.numbering.noteForest r.toForest := by
    rw [Drawing.addRegion, Drawing.addForest_eq]
  have tells := tells_forestLines s m h 0 0 d.numbering []
  rw [forestPlaces_toForest, List.flatMap_map] at tells
  rw [numbering]
  refine tells.trans (List.flatMap_congr fun e _ => ?_)
  rw [Nat.zero_add, List.length_cons, Nat.add_comm]
  rfl

theorem mem_keys_of_mem_places {p : List Nat} {j : Nat} (h : (p, .region j) ∈ r.places) :
    j ∈ r.toForest.labels.map RegionHead.key := by
  rw [labels_eq_filterMap r.toForest 0, forestPlaces_toForest, List.filterMap_map]
  exact List.mem_filterMap.2 ⟨_, h, rfl⟩

theorem traversed_of_isUnfolding (h : g.IsUnfolding k r) : Traversed g k r where
  ordered := r.pairwise_places
  mem_iff := fun p c => h.mem_places
  blocks := r.blocks_eq_filterMap
  outline := by
    intro m
    have lines := forestOutline_eq_map h m 1 0
    rw [forestPlaces_toForest, List.map_map] at lines
    refine lines.trans (List.map_congr_left fun e _ => ?_)
    show indented (1 + (e.1.length + 1)) _ = indented (2 + e.1.length) _
    rw [Nat.add_comm e.1.length, ← Nat.add_assoc]
  drawing := by
    intro s m d
    refine ⟨forestLines s m topDepth d.numbering r.toForest, ?_, tells_addRegion h s m d⟩
    rw [Drawing.addRegion, Drawing.addForest_eq]
  numbers := by
    intro s m d p p' j j' hj hj' same
    rw [Drawing.addRegion, Drawing.addForest_eq] at same
    exact eq_of_number_noteForest_eq (mem_keys_of_mem_places hj) (mem_keys_of_mem_places hj') same

end

/-- What the traversals of the regions of a graph have to do. -/
structure TraversalsAgree (g : RegionGraph) : Prop where
  /-- Every region unfolds to one tree. -/
  unfolding : ∀ k, ∃! r, g.IsUnfolding k r
  /-- All traversals of it go through the same places in the same order. -/
  traversed : ∀ k r, g.IsUnfolding k r → Traversed g k r
  /-- The blocks that some regions cover are those at their places. -/
  covered : ∀ ks rs, List.Forall₂ g.IsUnfolding ks rs → ∀ i,
    i ∈ coveredBlocks rs ↔ ∃ k ∈ ks, ∃ p, g.at? (.region k) p = some (.block i)
  /-- They do not depend on the order of the regions and on how often each is among them. -/
  roots : ∀ ks ks' rs rs', List.Forall₂ g.IsUnfolding ks rs → List.Forall₂ g.IsUnfolding ks' rs' →
    (∀ k, k ∈ ks ↔ k ∈ ks') → ∀ i, i ∈ coveredBlocks rs ↔ i ∈ coveredBlocks rs'

/-- In a graph of regions without cycles, whatever regions share, the blocks of a region, its
outline and its drawing come from the same places of one tree in the same order. -/
theorem traversalsAgree_of_acyclic {g : RegionGraph} (acyclic : g.Acyclic) : TraversalsAgree g where
  unfolding := acyclic.existsUnique_isUnfolding
  traversed := fun k r h => traversed_of_isUnfolding h
  covered := fun ks rs h i => RegionGraph.mem_coveredBlocks h
  roots := by
    intro ks ks' rs rs' h h' same i
    rw [RegionGraph.mem_coveredBlocks h, RegionGraph.mem_coveredBlocks h']
    exact exists_congr fun k => and_congr_left' (same k)

/-- A region that stands twice in the first one and once in another, with a block twice. -/
def sharingGraph : RegionGraph where
  nodes :=
    [{ children := [.block 0, .region 2, .region 1, .region 2] },
     { kind := lit "Loop", children := [.region 2, .block 3] },
     { kind := lit "If", description := lit "x", children := [.block 1, .block 1] }]

theorem sharingGraph_agrees :
    sharingGraph.Acyclic ∧ TraversalsAgree sharingGraph ∧
      ∃ r, sharingGraph.IsUnfolding 0 r ∧ r.blocks = [0, 1, 1, 1, 1, 3, 1, 1] := by
  have acyclic : sharingGraph.Acyclic := RegionGraph.acyclic_of_lt (by decide)
  have inner : sharingGraph.Unfolds (sharingGraph.children 2) (.leaf 1 (.leaf 1 .nil)) :=
    .block (.block .nil)
  have loop : sharingGraph.Unfolds (sharingGraph.children 1) _ := .region inner (.block .nil)
  exact ⟨acyclic, traversalsAgree_of_acyclic acyclic,
    ⟨sharingGraph.head 0, _⟩, .region (.block (.region inner (.region loop (.region inner .nil))))
      .nil, rfl⟩

end Dot

end FlowGraph
