import FlowGraph.Proofs.Listing.Print
import FlowGraph.Proofs.Listing.Spacing
import FlowGraph.Proofs.Listing.WellFormed

/-!
# The kinds of regions are words

The scanner gives each token the form of its terminal (`Matches.isFormed`), and the kind of a
region is a token of the terminal for names.  Loading keeps the kinds, so all regions of a
method that was read from a listing have words for their kinds (`worded_of_parse`).
-/

namespace FlowGraph

/-- What a node keeps when it is numbered is the same for each node. -/
theorem Forest.map_labels_numberFrom_eq {ρ ρ' β γ : Type} {f : Nat → ρ → ρ'} {g : ρ' → γ}
    (g' : ρ → γ) (h : ∀ n r, g (f n r) = g' r) (n : Nat) (t : Forest ρ β) :
    (numberFrom f n t).labels.map g = t.labels.map g' := by
  induction t generalizing n with
  | nil => rfl
  | leaf b rest ih => exact ih n
  | node r body rest ihBody ihRest => simp [numberFrom, labels, h, ihBody, ihRest]

namespace Listing

/-! ## Tokens have the form of their terminals -/

theorem Matches.isFormed {allowed : Terminal → Prop} {text rest : Text} {tok : Token}
    (h : Matches allowed text tok rest) : tok.IsFormed := by
  cases h with
  | string _ isBody => exact ⟨_, isBody, rfl⟩
  | int _ numeral _ => exact numeral
  | name _ word _ _ => exact word
  | word | front => exact isFormed_keyword _
  | @sign s _ hs _ =>
      have spelled : ∀ s ∈ Terminal.signs, s.1.text? = some s.2 := by decide
      exact isFormed_of_text (spelled s hs)

theorem Scans.isFormed {before ts : List Token} {text : Text} (h : Scans before text ts) :
    ∀ t ∈ ts, t.IsFormed := by
  induction h with
  | done _ => exact List.forall_mem_nil _
  | token _ found _ ih => exact List.forall_mem_cons.2 ⟨found.isFormed, ih⟩

theorem formed_of_read {text : Text} {trees : List MethodTree} (h : read text = .ok trees) :
    ∀ tree ∈ trees, Formed tree.derivation := by
  obtain ⟨scans, leaves⟩ := read_eq_ok_iff.1 h
  have formed : Formed (listingDerivation trees) := fun t ht => scans.isFormed t (leaves ▸ ht)
  simpa [listingDerivation] using formed

/-! ## Kinds as they are written -/

theorem formed_regionDerivation {line : RegionLine} {body : Derivation}
    (h : Formed (regionDerivation line body)) : IsWord line.kind ∧ Formed body := by
  simp only [regionDerivation, formed_append, formed_node, formed_leaf, formed_nil, isFormed_name,
    isFormed_keyword, isFormed_lbrace, isFormed_rbrace, and_true, true_and] at h
  obtain ⟨kind, -, -, body⟩ := h
  exact ⟨kind, body⟩

theorem isWord_of_formed_items {f : RegionItems} (h : Formed (itemsDerivation f)) :
    ∀ line ∈ f.labels, IsWord line.kind := by
  induction f with
  | nil => exact List.forall_mem_nil _
  | leaf d rest ih => exact ih (formed_append.1 h).2
  | node line body rest ihBody ihRest =>
      obtain ⟨region, rest⟩ := formed_append.1 h
      obtain ⟨kind, body⟩ := formed_regionDerivation region
      exact List.forall_mem_cons.2 ⟨kind, List.forall_mem_append.2 ⟨ihBody body, ihRest rest⟩⟩

/-! ## Kinds of loaded regions -/

/-- Whether the kinds of a region and of the regions inside it are words. -/
def Worded (r : Region) : Prop := ∀ h ∈ regionHeads r, IsWord h.kind

theorem worded_iff {r : Region} : Worded r ↔ ∀ w ∈ (regionHeads r).map RegionHead.kind, IsWord w :=
  List.forall_mem_map.symm

/-- Keys do not matter. -/
theorem worded_keyRegion {n : Nat} {r : Region} : Worded (keyRegion n r) ↔ Worded r := by
  have body : (keyRegion n r).body.labels.map RegionHead.kind
      = r.body.labels.map RegionHead.kind := by
    refine Forest.map_labels_numberFrom_eq RegionHead.kind ?_ (n + 1) r.body
    exact fun _ _ => rfl
  have kinds : (regionHeads (keyRegion n r)).map RegionHead.kind
      = (regionHeads r).map RegionHead.kind := congrArg (r.head.kind :: ·) body
  rw [worded_iff, worded_iff, kinds]

namespace Scope

variable {s : Scope}

theorem kinds_of_forest {tree : RegionItems} {f : RegionForest} (h : s.forest tree = .ok f) :
    f.labels.map RegionHead.kind = tree.labels.map RegionLine.kind := by
  induction tree generalizing f with
  | nil =>
      cases h
      rfl
  | leaf digits rest ih =>
      obtain ⟨j, -, h⟩ := bind_eq_ok_iff.1 h
      obtain ⟨g, hg, ⟨⟩⟩ := bind_eq_ok_iff.1 h
      exact (ih hg :)
  | node line body rest ihBody ihRest =>
      obtain ⟨g, hg, h⟩ := bind_eq_ok_iff.1 h
      obtain ⟨g', hg', ⟨⟩⟩ := bind_eq_ok_iff.1 h
      simp [Forest.labels, regionHead, ihBody hg, ihRest hg']

theorem worded_of_region {tree : RegionTree} {r : Region} (h : s.region tree = .ok r)
    (formed : Formed tree.derivation) : Worded r := by
  obtain ⟨f, hf, ⟨⟩⟩ := bind_eq_ok_iff.1 h
  obtain ⟨kind, body⟩ := formed_regionDerivation formed
  have kinds := List.forall_mem_map.2 (isWord_of_formed_items body)
  rw [← kinds_of_forest hf] at kinds
  exact List.forall_mem_cons.2 ⟨kind, List.forall_mem_map.1 kinds⟩

end Scope

/-- Whether the kinds of the regions in a resolved item are words. -/
def Resolved.Worded : Resolved → Prop
  | region r => Listing.Worded r
  | handler h => ∀ r ∈ h.region, Listing.Worded r
  | _ => True

theorem Scope.worded_of_clause {s : Scope} {c : Clause} {r : Resolved} (h : s.clause c = .ok r)
    (formed : Formed c.derivation) : r.Worded := by
  cases c with
  | entry digits =>
      obtain ⟨i, -, ⟨⟩⟩ := bind_eq_ok_iff.1 h
      trivial
  | region tree =>
      obtain ⟨g, hg, ⟨⟩⟩ := bind_eq_ok_iff.1 h
      exact worded_of_region hg formed
  | handler catchType tree =>
      obtain ⟨g, hg, ⟨⟩⟩ := bind_eq_ok_iff.1 h
      cases tree with
      | none =>
          cases hg
          intro r hr
          cases hr
      | some tree =>
          obtain ⟨r, hr, ⟨⟩⟩ := bind_eq_ok_iff.1 hg
          simp only [Clause.derivation, formed_node, formed_leaf, formed_append, formed_nil,
            isFormed_keyword, isFormed_lbrace, isFormed_rbrace, Option.map_some, Option.getD_some,
            and_true, true_and] at formed
          rintro _ ⟨⟩
          exact worded_of_region hr formed.2
  | _ =>
      cases h
      trivial

theorem Scope.worded_of_resolves {s : Scope} {i : Item} {d : Declaration} {r : Resolved}
    (declares : Declares i d) (h : s.Resolves d r) (formed : Formed i.derivation) : r.Worded := by
  cases i with
  | block tree =>
      obtain ⟨b, -, rfl⟩ := declares
      obtain ⟨b', -, rfl⟩ := h
      trivial
  | clause c =>
      cases declares
      exact worded_of_clause h formed

/-- The kinds of the regions of a loaded method are words. -/
theorem MethodTree.worded_of_load {tree : MethodTree} {m : Method} (h : tree.load = .ok m)
    (formed : Formed tree.derivation) : ∀ r ∈ m.regions, Worded r := by
  obtain ⟨ds, rs, declares, -, resolves, -, rfl⟩ := load_eq_ok_iff.1 h
  have items : ∀ i ∈ tree.items, Formed i.derivation := by
    simp only [MethodTree.derivation, formed_node, formed_leaf, formed_append, formed_joined,
      formed_nil, isFormed_keyword, isFormed_lbrace, isFormed_rbrace, and_true, true_and] at formed
    exact formed.2.2
  have worded : ∀ r ∈ rs, r.Worded := by
    intro r hr
    obtain ⟨d, hd, resolved⟩ := exists_of_mem_right resolves hr
    obtain ⟨i, hi, declared⟩ := exists_of_mem_right declares hd
    exact Scope.worded_of_resolves declared resolved (items i hi)
  intro r hr
  obtain ⟨k, r₀, rfl, (root | ⟨handler, mem, found⟩)⟩ := exists_of_mem_regions_assemble hr
  · exact worded_keyRegion.2 (worded _ root)
  · exact worded_keyRegion.2 (worded _ mem r₀ found)

theorem worded_of_parse {text : Text} {ms : List Method} (h : parse text = .ok ms)
    {m : Method} (hm : m ∈ ms) : ∀ r ∈ m.regions, Worded r := by
  obtain ⟨trees, read, loads⟩ := parse_eq_ok_iff.1 h
  obtain ⟨tree, mem, loaded⟩ := exists_of_mem_right loads hm
  exact MethodTree.worded_of_load loaded (formed_of_read read tree mem)

end Listing

end FlowGraph
