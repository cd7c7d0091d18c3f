import Mathlib.Data.Fintype.EquivFin
import Mathlib.Data.List.Basic
import Mathlib.Data.List.Forall2
import Mathlib.Data.List.GetD
import Mathlib.Logic.ExistsUnique
import Mathlib.Logic.Relation
import FlowGraph.Method.Basic

/-!
# Graphs of regions

A region may stand inside several others, and several times inside one.  Regions in memory are
therefore a graph.  A method holds trees, in which such a region stands wherever it is reached,
with one key.

`Unfolds` says which forest the children of a region come to.  In a graph without cycles every
region has one unfolding (`Acyclic.exists_unfolds`, `Unfolds.functional`).

A *place* in a region is the path to it by the positions of children.  `places` lists what stands
at the places of a tree, and the graph says the same by following the paths (`mem_places`).  The
places stand in the order of their paths, in which a region comes before all that it holds
(`pairwise_places`).
-/

namespace FlowGraph

/-! ## Graphs -/

/-- What stands inside a region: a block by its position, or a region by its key. -/
inductive RegionChild where
  | block (i : Nat)
  | region (k : Nat)
deriving DecidableEq, Repr

/-- The position of a block. -/
def RegionChild.block? : RegionChild → Option Nat
  | block i => some i
  | region _ => none

theorem RegionChild.block?_eq_some_iff {c : RegionChild} {i : Nat} :
    c.block? = some i ↔ c = .block i := by
  cases c <;> simp [block?]

/-- The key of a region. -/
def RegionChild.region? : RegionChild → Option Nat
  | block _ => none
  | region k => some k

/-- A region of a graph. -/
structure RegionNode where
  /-- Its kind. -/
  kind : Text := lit "Region"
  /-- Its description. -/
  description : Text := []
  /-- Its attributes. -/
  attributes : List Text := []
  /-- The blocks and regions inside it, in order. -/
  children : List RegionChild := []
deriving DecidableEq, Repr

/-- Regions that may share others.  The key of a region is its position. -/
structure RegionGraph where
  /-- The regions. -/
  nodes : List RegionNode
deriving DecidableEq, Repr

namespace RegionGraph

/-- What stands inside a region. -/
def children (g : RegionGraph) (k : Nat) : List RegionChild := (g.nodes.getD k {}).children

/-- What a region says about itself. -/
def head (g : RegionGraph) (k : Nat) : RegionHead :=
  let node := g.nodes.getD k {}
  ⟨k, node.kind, node.description, node.attributes⟩

/-- Whether a region stands right inside another. -/
def Inside (g : RegionGraph) (j k : Nat) : Prop := .region j ∈ g.children k

/-- Whether no region stands inside itself, at whatever depth. -/
def Acyclic (g : RegionGraph) : Prop := ∀ k, ¬ Relation.TransGen g.Inside k k

variable {g : RegionGraph}

theorem children_of_le {k : Nat} (h : g.nodes.length ≤ k) : g.children k = [] := by
  rw [children, List.getD_eq_default _ _ h]

/-- A graph in which regions stand only inside regions before them has no cycle. -/
theorem acyclic_of_lt (h : ∀ k < g.nodes.length, ∀ c ∈ g.children k, ∀ j ∈ c.region?, k < j) :
    g.Acyclic := by
  have later : ∀ {j k}, g.Inside j k → k < j := by
    intro j k inside
    by_cases lt : k < g.nodes.length
    · exact h k lt _ inside j rfl
    · rw [Inside, children_of_le (Nat.le_of_not_lt lt)] at inside
      cases inside
  intro k cycle
  have all : ∀ {j k}, Relation.TransGen g.Inside j k → k < j := by
    intro j k path
    induction path with
    | single inside => exact later inside
    | tail _ inside ih => exact Nat.lt_trans (later inside) ih
  exact Nat.lt_irrefl k (all cycle)

/-- From region to region inside one comes to an end, since there are finitely many. -/
theorem Acyclic.wellFounded (h : g.Acyclic) : WellFounded g.Inside := by
  have outside : ∀ k, g.nodes.length ≤ k → Acc g.Inside k := by
    intro k le
    refine ⟨k, fun j inside => ?_⟩
    rw [Inside, children_of_le le] at inside
    cases inside
  let deep (j k : Fin g.nodes.length) : Prop := Relation.TransGen g.Inside j k
  have : IsTrans _ deep := ⟨fun _ _ _ => Relation.TransGen.trans⟩
  have : Std.Irrefl deep := ⟨fun k => h k⟩
  have among : ∀ k : Fin g.nodes.length, Acc g.Inside k := by
    intro k
    induction k using (Finite.wellFounded_of_trans_of_irrefl deep).induction with
    | _ k ih =>
        refine ⟨_, fun j inside => ?_⟩
        by_cases lt : j < g.nodes.length
        · exact ih ⟨j, lt⟩ (.single inside)
        · exact outside j (Nat.le_of_not_lt lt)
  refine ⟨fun k => ?_⟩
  by_cases lt : k < g.nodes.length
  · exact among ⟨k, lt⟩
  · exact outside k (Nat.le_of_not_lt lt)

/-! ## Unfoldings -/

/-- The forest that some children come to. -/
inductive Unfolds (g : RegionGraph) : List RegionChild → RegionForest → Prop
  | nil : Unfolds g [] .nil
  | block {i : Nat} {cs : List RegionChild} {f : RegionForest} :
      Unfolds g cs f → Unfolds g (.block i :: cs) (.leaf i f)
  | region {k : Nat} {cs : List RegionChild} {body f : RegionForest} :
      Unfolds g (g.children k) body → Unfolds g cs f →
      Unfolds g (.region k :: cs) (.node (g.head k) body f)

/-- Whether a tree is what a region comes to. -/
def IsUnfolding (g : RegionGraph) (k : Nat) (r : Region) : Prop := g.Unfolds [.region k] r.toForest

theorem Unfolds.functional {cs : List RegionChild} {f f' : RegionForest} (h : g.Unfolds cs f)
    (h' : g.Unfolds cs f') : f = f' := by
  induction h generalizing f' with
  | nil =>
      cases h'
      rfl
  | block _ ih =>
      cases h' with
      | block later => rw [ih later]
  | region _ _ ihBody ih =>
      cases h' with
      | region body later => rw [ihBody body, ih later]

/-- Without cycles every region has an unfolding. -/
theorem Acyclic.exists_unfolds (h : g.Acyclic) (cs : List RegionChild) : ∃ f, g.Unfolds cs f := by
  have row : ∀ cs : List RegionChild,
      (∀ j, .region j ∈ cs → ∃ f, g.Unfolds (g.children j) f) → ∃ f, g.Unfolds cs f := by
    intro cs
    induction cs with
    | nil =>
        intro _
        exact ⟨_, .nil⟩
    | cons c cs ih =>
        intro below
        obtain ⟨f, later⟩ := ih fun j mem => below j (List.mem_cons_of_mem c mem)
        cases c with
        | block i => exact ⟨_, .block later⟩
        | region k =>
            obtain ⟨body, inner⟩ := below k List.mem_cons_self
            exact ⟨_, .region inner later⟩
  have region : ∀ k, ∃ f, g.Unfolds (g.children k) f := by
    intro k
    induction k using h.wellFounded.induction with
    | _ k ih => exact row _ ih
  exact row cs fun j _ => region j

theorem Acyclic.existsUnique_isUnfolding (h : g.Acyclic) (k : Nat) : ∃! r, g.IsUnfolding k r := by
  obtain ⟨body, inner⟩ := h.exists_unfolds (g.children k)
  refine ⟨⟨g.head k, body⟩, .region inner .nil, fun r unfolding => ?_⟩
  obtain ⟨head, body, -⟩ := Forest.node.inj (unfolding.functional (.region inner .nil))
  exact (Region.mk.injEq ..).mpr ⟨head, body⟩

/-! ## Places -/

/-- What stands at a place, by the positions of the children on the way to it. -/
def at? (g : RegionGraph) : RegionChild → List Nat → Option RegionChild
  | c, [] => some c
  | .block _, _ :: _ => none
  | .region k, n :: p => (g.children k)[n]?.bind fun c => g.at? c p

end RegionGraph

/-- What stands at the places of a forest, each with its place.  The trees are counted from `n`
on. -/
def forestPlaces : Nat → RegionForest → List (List Nat × RegionChild)
  | _, .nil => []
  | n, .leaf i rest => ([n], .block i) :: forestPlaces (n + 1) rest
  | n, .node r body rest =>
      ([n], .region r.key) :: (forestPlaces 0 body).map (fun e => (n :: e.1, e.2))
        ++ forestPlaces (n + 1) rest

/-- What stands at the places of a region. -/
def Region.places (r : Region) : List (List Nat × RegionChild) :=
  ([], .region r.head.key) :: forestPlaces 0 r.body

/-- The places of a tree of a forest are those of the tree, behind its number. -/
theorem forestPlaces_node (n : Nat) (r : RegionHead) (body rest : RegionForest) :
    forestPlaces n (.node r body rest) =
      (Region.places ⟨r, body⟩).map (fun e => (n :: e.1, e.2)) ++ forestPlaces (n + 1) rest := rfl

theorem forestPlaces_toForest (r : Region) :
    forestPlaces 0 r.toForest = r.places.map fun e => (0 :: e.1, e.2) := List.append_nil _

theorem mem_map_places {n : Nat} {es : List (List Nat × RegionChild)} {p : List Nat}
    {c : RegionChild} : (p, c) ∈ es.map (fun e => (n :: e.1, e.2)) ↔
      ∃ q, p = n :: q ∧ (q, c) ∈ es := by
  constructor
  · intro mem
    obtain ⟨⟨q, d⟩, inside, same⟩ := List.mem_map.1 mem
    cases same
    exact ⟨q, rfl, inside⟩
  · rintro ⟨q, rfl, mem⟩
    exact List.mem_map.2 ⟨(q, c), mem, rfl⟩

/-- The blocks of a forest stand at its places from left to right. -/
theorem leaves_eq_filterMap (f : RegionForest) (n : Nat) :
    f.leaves = (forestPlaces n f).filterMap fun e => e.2.block? := by
  induction f generalizing n with
  | nil => rfl
  | leaf i later ih => exact congrArg (i :: ·) (ih (n + 1))
  | node r body later ihBody ihLater =>
      rw [Forest.leaves, ihBody 0, ihLater (n + 1), forestPlaces, List.filterMap_append,
        List.filterMap_cons_none rfl, List.filterMap_map]
      rfl

/-- The regions of a forest stand at its places, each before those inside it. -/
theorem labels_eq_filterMap (f : RegionForest) (n : Nat) :
    f.labels.map RegionHead.key = (forestPlaces n f).filterMap fun e => e.2.region? := by
  induction f generalizing n with
  | nil => rfl
  | leaf i later ih => exact ih (n + 1)
  | node r body later ihBody ihLater =>
      rw [Forest.labels, List.map_cons, List.map_append, ihBody 0, ihLater (n + 1), forestPlaces,
        List.filterMap_append, List.filterMap_cons, List.filterMap_map]
      rfl

theorem Region.blocks_eq_filterMap (r : Region) :
    r.blocks = r.places.filterMap fun e => e.2.block? := leaves_eq_filterMap r.body 0

/-- The places of a forest are counted from its first tree on. -/
theorem exists_eq_cons_of_mem {f : RegionForest} {n : Nat} {e : List Nat × RegionChild}
    (h : e ∈ forestPlaces n f) : ∃ i p, n ≤ i ∧ e.1 = i :: p := by
  induction f generalizing n with
  | nil => cases h
  | leaf i later ih =>
      rcases List.mem_cons.1 h with rfl | h
      · exact ⟨n, [], Nat.le_refl n, rfl⟩
      · obtain ⟨i, p, le, same⟩ := ih h
        exact ⟨i, p, Nat.le_of_succ_le le, same⟩
  | node r body later ihBody ihLater =>
      rw [forestPlaces_node] at h
      rcases List.mem_append.1 h with h | h
      · obtain ⟨e, -, rfl⟩ := List.mem_map.1 h
        exact ⟨n, e.1, Nat.le_refl n, rfl⟩
      · obtain ⟨i, p, le, same⟩ := ihLater h
        exact ⟨i, p, Nat.le_of_succ_le le, same⟩

/-- The places of a forest stand in the order of their paths. -/
theorem pairwise_forestPlaces (f : RegionForest) (n : Nat) :
    (forestPlaces n f).Pairwise fun e e' => e.1 < e'.1 := by
  induction f generalizing n with
  | nil => exact .nil
  | leaf i later ih =>
      refine List.pairwise_cons.2 ⟨fun e mem => ?_, ih (n + 1)⟩
      obtain ⟨i, p, le, same⟩ := exists_eq_cons_of_mem mem
      rw [same]
      exact List.cons_lt_cons_iff.2 (.inl le)
  | node r body later ihBody ihLater =>
      have whole : (Region.places ⟨r, body⟩).Pairwise fun e e' => e.1 < e'.1 := by
        refine List.pairwise_cons.2 ⟨fun e mem => ?_, ihBody 0⟩
        obtain ⟨i, p, -, same⟩ := exists_eq_cons_of_mem mem
        rw [same]
        exact List.nil_lt_cons i p
      rw [forestPlaces_node]
      refine List.pairwise_append.2 ⟨?_, ihLater (n + 1), fun e mem e' mem' => ?_⟩
      · refine List.pairwise_map.2 (whole.imp fun lt => ?_)
        exact List.cons_lt_cons_iff.2 (.inr ⟨rfl, lt⟩)
      · obtain ⟨e, -, rfl⟩ := List.mem_map.1 mem
        obtain ⟨i, p, le, same⟩ := exists_eq_cons_of_mem mem'
        rw [same]
        exact List.cons_lt_cons_iff.2 (.inl le)

theorem Region.pairwise_places (r : Region) : r.places.Pairwise fun e e' => e.1 < e'.1 := by
  have forest := pairwise_forestPlaces r.toForest 0
  rw [forestPlaces_toForest, List.pairwise_map] at forest
  refine forest.imp fun lt => ?_
  rcases List.cons_lt_cons_iff.1 lt with lt | ⟨-, lt⟩
  · exact absurd lt (Nat.lt_irrefl 0)
  · exact lt

namespace RegionGraph

variable {g : RegionGraph}

theorem at?_region {k : Nat} {p : List Nat} {c : RegionChild} : g.at? (.region k) p = some c ↔
    p = [] ∧ .region k = c ∨
      ∃ i q d, p = i :: q ∧ (g.children k)[i]? = some d ∧ g.at? d q = some c := by
  cases p with
  | nil => simp [at?]
  | cons i q =>
      rw [at?, Option.bind_eq_some_iff]
      constructor
      · rintro ⟨d, child, inside⟩
        exact .inr ⟨i, q, d, rfl, child, inside⟩
      · rintro (⟨⟨⟩, -⟩ | ⟨_, _, d, ⟨⟩, child, inside⟩)
        exact ⟨d, child, inside⟩

/-- A place among some children is in the first of them or among the others. -/
theorem exists_child_cons {d : RegionChild} {cs : List RegionChild} {n : Nat} {p : List Nat}
    {c : RegionChild} :
    (∃ i q e, p = (n + i) :: q ∧ (d :: cs)[i]? = some e ∧ g.at? e q = some c) ↔
      (∃ q, p = n :: q ∧ g.at? d q = some c) ∨
        ∃ i q e, p = (n + 1 + i) :: q ∧ cs[i]? = some e ∧ g.at? e q = some c := by
  constructor
  · rintro ⟨i, q, e, rfl, child, inside⟩
    cases i with
    | zero =>
        cases child
        exact .inl ⟨q, rfl, inside⟩
    | succ i => exact .inr ⟨i, q, e, by rw [Nat.add_assoc, Nat.add_comm 1 i], child, inside⟩
  · rintro (⟨q, rfl, inside⟩ | ⟨i, q, e, rfl, child, inside⟩)
    · exact ⟨0, q, d, rfl, rfl, inside⟩
    · exact ⟨i + 1, q, e, by rw [Nat.add_assoc, Nat.add_comm 1 i], child, inside⟩

/-- What stands at the places of an unfolding is what the graph has there. -/
theorem Unfolds.mem_forestPlaces {cs : List RegionChild} {f : RegionForest} (h : g.Unfolds cs f)
    {n : Nat} {p : List Nat} {c : RegionChild} : (p, c) ∈ forestPlaces n f ↔
      ∃ i q d, p = (n + i) :: q ∧ cs[i]? = some d ∧ g.at? d q = some c := by
  induction h generalizing n p c with
  | nil => simp [forestPlaces]
  | @block i cs f _ ih =>
      rw [exists_child_cons, forestPlaces, List.mem_cons, ih]
      refine or_congr_left ⟨?_, ?_⟩
      · rintro ⟨⟩
        exact ⟨[], rfl, rfl⟩
      · rintro ⟨q, rfl, inside⟩
        cases q with
        | nil =>
            cases inside
            rfl
        | cons n q => cases inside
  | @region k cs body f _ _ ihBody ih =>
      have whole : ∀ q, (q, c) ∈ Region.places ⟨g.head k, body⟩ ↔ g.at? (.region k) q = some c := by
        intro q
        rw [Region.places, List.mem_cons, ihBody, at?_region]
        refine or_congr ?_ ⟨?_, ?_⟩
        · rw [Prod.mk.injEq, eq_comm (a := c)]
          rfl
        · rintro ⟨i, q, d, rfl, child, inside⟩
          rw [Nat.zero_add]
          exact ⟨i, q, d, rfl, child, inside⟩
        · rintro ⟨i, q, d, rfl, child, inside⟩
          exact ⟨i, q, d, by rw [Nat.zero_add], child, inside⟩
      rw [exists_child_cons, forestPlaces_node, List.mem_append, ih]
      rw [mem_map_places, exists_congr fun q => and_congr_right fun _ => whole q]

section Unfolding

variable {k : Nat} {r : Region} {p : List Nat} {c : RegionChild}

theorem IsUnfolding.mem_places (h : g.IsUnfolding k r) :
    (p, c) ∈ r.places ↔ g.at? (.region k) p = some c := by
  have rooted := h.mem_forestPlaces (n := 0) (p := 0 :: p) (c := c)
  rw [forestPlaces_toForest, mem_map_places, exists_child_cons] at rooted
  simpa using rooted

theorem IsUnfolding.mem_blocks (h : g.IsUnfolding k r) {i : Nat} :
    i ∈ r.blocks ↔ ∃ p, g.at? (.region k) p = some (.block i) := by
  rw [r.blocks_eq_filterMap, List.mem_filterMap]
  constructor
  · rintro ⟨⟨p, c⟩, mem, isBlock⟩
    rw [RegionChild.block?_eq_some_iff] at isBlock
    exact ⟨p, isBlock ▸ h.mem_places.1 mem⟩
  · rintro ⟨p, inside⟩
    exact ⟨(p, .block i), h.mem_places.2 inside, rfl⟩

/-- The blocks that some regions reach are those at their places. -/
theorem mem_coveredBlocks {ks : List Nat} {rs : List Region} (h : List.Forall₂ g.IsUnfolding ks rs)
    {i : Nat} : i ∈ coveredBlocks rs ↔ ∃ k ∈ ks, ∃ p, g.at? (.region k) p = some (.block i) := by
  induction h with
  | nil => simp [coveredBlocks]
  | cons unfolding _ ih =>
      rw [coveredBlocks, List.flatMap_cons, List.mem_append, unfolding.mem_blocks]
      rw [coveredBlocks] at ih
      rw [ih, List.exists_mem_cons_iff]

end Unfolding

end RegionGraph

end FlowGraph
