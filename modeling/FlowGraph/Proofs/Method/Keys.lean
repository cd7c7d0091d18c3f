import FlowGraph.Method.Basic

/-!
# Keys of regions

A key stands for the identity of a region and has no other meaning, so two methods are the
same if one becomes the other by renaming keys without making two of them equal
(`Method.Same`).

Numbering the nodes of a forest gives different keys (`Forest.map_labels_numberFrom`).
Where the keys differ already, that is a renaming (`Forest.numberFrom_mapLabels`).
-/

namespace FlowGraph

/-! ## Labels of forests -/

namespace Forest

variable {ρ ρ' ρ'' β : Type}

/-- The forest with its labels replaced. -/
def mapLabels (f : ρ → ρ') : Forest ρ β → Forest ρ' β
  | nil => nil
  | leaf b rest => leaf b (rest.mapLabels f)
  | node r body rest => node (f r) (body.mapLabels f) (rest.mapLabels f)

@[simp] theorem labels_mapLabels (f : ρ → ρ') (g : Forest ρ β) :
    (g.mapLabels f).labels = g.labels.map f := by
  induction g with
  | nil => rfl
  | leaf b rest ih => simp [mapLabels, labels, ih]
  | node r body rest ihBody ihRest => simp [mapLabels, labels, ihBody, ihRest]

/-- The nodes of a numbered forest have the numbers from the first one on. -/
theorem map_labels_numberFrom (f : Nat → ρ → ρ') (key : ρ' → Nat) (hf : ∀ n r, key (f n r) = n)
    (n : Nat) (g : Forest ρ β) :
    (numberFrom f n g).labels.map key = List.range' n g.labels.length := by
  induction g generalizing n with
  | nil => rfl
  | leaf b rest ih => exact ih n
  | node r body rest ihBody ihRest =>
      simp only [numberFrom, labels, List.map_cons, List.map_append, hf, ihBody, ihRest,
        List.length_cons, List.length_append]
      rw [List.range'_succ, List.range'_append_1]

/-- Numbering the nodes replaces their labels, where a label determines the number of its
node. -/
theorem numberFrom_mapLabels {f : Nat → ρ' → ρ''} {erase : ρ → ρ'} (label : ρ → ρ'')
    {number : ρ → Nat} (same : ∀ r, f (number r) (erase r) = label r) {n : Nat} {g : Forest ρ β}
    (h : g.labels.map number = List.range' n g.labels.length) :
    numberFrom f n (g.mapLabels erase) = g.mapLabels label := by
  induction g generalizing n with
  | nil => rfl
  | leaf b rest ih => exact congrArg (leaf b) (ih h)
  | node r body rest ihBody ihRest =>
      simp only [labels, List.map_cons, List.map_append, List.length_cons, List.length_append]
        at h
      rw [List.range'_succ, ← List.range'_append_1] at h
      obtain ⟨head, tail⟩ := List.cons.inj h
      obtain ⟨inner, outer⟩ := List.append_inj tail (by simp)
      simp only [mapLabels, numberFrom, labels_mapLabels, List.length_map]
      rw [ihBody inner, ihRest outer, ← head, same]

end Forest

/-! ## Regions of a method -/

namespace Method

variable {m : Method} {r : Region}

theorem mem_regions_of_root (hr : m.region = some r) : r ∈ m.regions :=
  List.mem_append_left _ (Option.mem_toList.2 hr)

theorem mem_regions_of_handler {h : Handler} (hh : h ∈ m.handlers) (hr : h.region = some r) :
    r ∈ m.regions :=
  List.mem_append_right _ (List.mem_filterMap.2 ⟨h, hh, hr⟩)

end Method

/-! ## Keys -/

/-- The keys of a region and of the regions inside it, each before those inside it. -/
def Region.keys (r : Region) : List Nat := r.head.key :: r.body.labels.map RegionHead.key

/-- The keys of the regions of a method, the root region before the handlers. -/
def Method.keys (m : Method) : List Nat := m.regions.flatMap Region.keys

/-- A head with its key renamed. -/
def RegionHead.mapKey (f : Nat → Nat) (h : RegionHead) : RegionHead := { h with key := f h.key }

/-- A region with all keys renamed. -/
def Region.mapKeys (f : Nat → Nat) (r : Region) : Region :=
  ⟨r.head.mapKey f, r.body.mapLabels (RegionHead.mapKey f)⟩

def Handler.mapKeys (f : Nat → Nat) (h : Handler) : Handler :=
  { h with region := h.region.map (Region.mapKeys f) }

theorem Handler.mapKeys_of_none {h : Handler} (hr : h.region = none) (f : Nat → Nat) :
    h.mapKeys f = h := by
  unfold mapKeys
  rw [hr, Option.map_none, ← hr]

/-- A method with all keys renamed. -/
def Method.mapKeys (f : Nat → Nat) (m : Method) : Method :=
  { m with
    region := m.region.map (Region.mapKeys f)
    handlers := m.handlers.map (Handler.mapKeys f) }

/-- Whether two methods differ at most in how their regions are told apart. -/
def Method.Same (m m' : Method) : Prop :=
  ∃ f : Nat → Nat, (∀ j ∈ m.keys, ∀ k ∈ m.keys, f j = f k → j = k) ∧ m' = m.mapKeys f

/-! ## Places of keys -/

/-- The places of different keys are the numbers from zero on. -/
theorem map_idxOf_eq_range' {keys : List Nat} (h : keys.Nodup) :
    keys.map (fun k => keys.idxOf k) = List.range' 0 keys.length := by
  refine List.ext_getElem (by simp) fun i hi _ => ?_
  rw [List.length_map] at hi
  rw [List.getElem_map, h.idxOf_getElem, List.getElem_range', Nat.zero_add, Nat.one_mul]

theorem eq_of_idxOf_eq {keys : List Nat} {j k : Nat} (hj : j ∈ keys) (hk : k ∈ keys)
    (h : keys.idxOf j = keys.idxOf k) : j = k := by
  have hj' := List.getElem_idxOf (List.idxOf_lt_length_iff.2 hj)
  have hk' := List.getElem_idxOf (List.idxOf_lt_length_iff.2 hk)
  rw [← hj', ← hk']
  congr 1

end FlowGraph
