import FlowGraph.Listing.Load
import FlowGraph.Proofs.Method.Keys

/-!
# Keys given by loading

A region that is read has no key of its own.  `keyRegion` and `keyHandlers` number the
regions from left to right, so their keys are a range of numbers (`keys_keyRegion`,
`keys_keyHandlers`).  For regions whose keys were different before, that is a renaming
(`keyRegion_mapKeys`, `keyHandlers_mapKeys`).
-/

namespace FlowGraph.Listing

theorem regionCount_eq_length_keys (r : Region) : regionCount r = r.keys.length := by
  simp [regionCount, Region.keys]

/-- The keys do not matter for the number of regions. -/
theorem regionCount_mapKeys (f : Nat → Nat) (r : Region) :
    regionCount (r.mapKeys f) = regionCount r := by
  simp [regionCount, Region.mapKeys]

/-! ## One region -/

theorem keys_keyRegion (n : Nat) (r : Region) :
    (keyRegion n r).keys = List.range' n r.keys.length := by
  rw [← regionCount_eq_length_keys]
  unfold keyRegion regionCount Region.keys
  rw [Forest.map_labels_numberFrom _ _ (fun _ _ => rfl), List.range'_succ]

/-- Giving keys changes nothing about the blocks. -/
theorem blocks_keyRegion (n : Nat) (r : Region) : (keyRegion n r).blocks = r.blocks :=
  Forest.leaves_numberFrom _ _ _

/-- Giving numbers as keys renames them, where a key determines its number. -/
theorem keyRegion_mapKeys {f g : Nat → Nat} {n : Nat} {r : Region}
    (h : r.keys.map f = List.range' n r.keys.length) :
    keyRegion n (r.mapKeys g) = r.mapKeys f := by
  unfold Region.keys at h
  rw [List.map_cons, List.length_cons, List.range'_succ] at h
  obtain ⟨head, tail⟩ := List.cons.inj h
  rw [List.map_map, List.length_map] at tail
  unfold keyRegion Region.mapKeys
  dsimp only
  rw [Forest.numberFrom_mapLabels (RegionHead.mapKey f) (fun _ => rfl) tail, ← head]
  rfl

/-! ## Handlers -/

section Handlers

variable {n : Nat} {h : Handler} {hs : List Handler} {r : Region}

theorem keyHandlers_cons_none (hr : h.region = none) :
    keyHandlers n (h :: hs) = h :: keyHandlers n hs := by
  rw [keyHandlers, hr]

theorem keyHandlers_cons_some (hr : h.region = some r) :
    keyHandlers n (h :: hs)
      = { h with region := some (keyRegion n r) } :: keyHandlers (n + regionCount r) hs := by
  rw [keyHandlers, hr]

theorem keys_keyHandlers (n : Nat) (hs : List Handler) :
    ((keyHandlers n hs).filterMap Handler.region).flatMap Region.keys
      = List.range' n ((hs.filterMap Handler.region).flatMap Region.keys).length := by
  induction hs generalizing n with
  | nil => rfl
  | cons h hs ih =>
      cases hr : h.region with
      | none =>
          rw [keyHandlers_cons_none hr, List.filterMap_cons_none hr, List.filterMap_cons_none hr]
          exact ih n
      | some r =>
          rw [keyHandlers_cons_some hr, List.filterMap_cons_some (f := Handler.region) rfl,
            List.filterMap_cons_some hr, List.flatMap_cons, List.flatMap_cons, keys_keyRegion,
            ih, regionCount_eq_length_keys, List.range'_append_1, List.length_append]

/-- Each region comes from that of a handler. -/
theorem exists_of_mem_keyHandlers (mem : r ∈ (keyHandlers n hs).filterMap Handler.region) :
    ∃ k, ∃ h ∈ hs, ∃ r₀, h.region = some r₀ ∧ r = keyRegion k r₀ := by
  induction hs generalizing n with
  | nil => cases mem
  | cons h hs ih =>
      have later : ∀ {n}, r ∈ (keyHandlers n hs).filterMap Handler.region →
          ∃ k, ∃ h' ∈ h :: hs, ∃ r₀, h'.region = some r₀ ∧ r = keyRegion k r₀ := by
        intro n mem
        obtain ⟨k, h', hh', found⟩ := ih mem
        exact ⟨k, h', List.mem_cons_of_mem _ hh', found⟩
      cases hr : h.region with
      | none =>
          rw [keyHandlers_cons_none hr, List.filterMap_cons_none hr] at mem
          exact later mem
      | some r₀ =>
          rw [keyHandlers_cons_some hr, List.filterMap_cons_some (f := Handler.region) rfl] at mem
          rcases List.mem_cons.1 mem with rfl | mem
          · exact ⟨n, h, List.mem_cons_self, r₀, hr, rfl⟩
          · exact later mem

theorem keyHandlers_mapKeys {f g : Nat → Nat}
    (keys : ((hs.filterMap Handler.region).flatMap Region.keys).map f
      = List.range' n ((hs.filterMap Handler.region).flatMap Region.keys).length) :
    keyHandlers n (hs.map (Handler.mapKeys g)) = hs.map (Handler.mapKeys f) := by
  induction hs generalizing n with
  | nil => rfl
  | cons h hs ih =>
      rw [List.map_cons, List.map_cons]
      cases hr : h.region with
      | none =>
          rw [List.filterMap_cons_none hr] at keys
          rw [Handler.mapKeys_of_none hr, Handler.mapKeys_of_none hr, keyHandlers_cons_none hr,
            ih keys]
      | some r =>
          rw [List.filterMap_cons_some hr, List.flatMap_cons, List.map_append,
            List.length_append, ← List.range'_append_1] at keys
          obtain ⟨first, later⟩ := List.append_inj keys (by simp)
          have inner : (h.mapKeys g).region = some (r.mapKeys g) :=
            congrArg (Option.map (Region.mapKeys g)) hr
          rw [keyHandlers_cons_some inner, keyRegion_mapKeys first, regionCount_mapKeys,
            regionCount_eq_length_keys, ih later]
          unfold Handler.mapKeys
          rw [hr]
          rfl

end Handlers

end FlowGraph.Listing
