import FlowGraph.Proofs.Listing.Kinds
import FlowGraph.Proofs.Method.Legibility

/-!
# Outlines of listed methods

Two methods of listings have one outline exactly if they have one summary
(`parse_outline_eq_iff`), where the names and texts that the outline shows as they are have no
line breaks and no blanks at their ends.  Attributes may have both, since they are quoted.
-/

namespace FlowGraph

/-- Whether the names and texts of a method that its outline shows as they are have no line
break and no blank at their ends. -/
structure Method.Tidy (m : Method) : Prop where
  /-- The name of the class is tidy. -/
  className : m.className.IsTidy
  /-- The short id is tidy. -/
  shortId : m.shortId.IsTidy
  /-- The texts of the instructions are tidy. -/
  instructions : ∀ i ∈ m.listed, ∀ n ∈ (m.block i).instructions, n.text.IsTidy
  /-- The descriptions of the regions are tidy, those of the handlers' regions too. -/
  descriptions : ∀ r ∈ m.regions, ∀ h ∈ Listing.regionHeads r, h.description.IsTidy
  /-- The catch types are tidy. -/
  catchTypes : ∀ h ∈ m.handlers, h.catchType.IsTidy

instance (m : Method) : Decidable m.Tidy :=
  decidable_of_iff (m.className.IsTidy ∧ m.shortId.IsTidy
      ∧ (∀ i ∈ m.listed, ∀ n ∈ (m.block i).instructions, n.text.IsTidy)
      ∧ (∀ r ∈ m.regions, ∀ h ∈ Listing.regionHeads r, h.description.IsTidy)
      ∧ ∀ h ∈ m.handlers, h.catchType.IsTidy)
    ⟨fun ⟨className, shortId, instructions, descriptions, catchTypes⟩ =>
        ⟨className, shortId, instructions, descriptions, catchTypes⟩,
      fun h => ⟨h.className, h.shortId, h.instructions, h.descriptions, h.catchTypes⟩⟩

theorem Forest.labels_mapLeaves {ρ β β' : Type} (f : β → β') (g : Forest ρ β) :
    (g.mapLeaves f).labels = g.labels := by
  induction g with
  | nil => rfl
  | leaf b rest ih => exact ih
  | node r body rest ihBody ihRest => simp [mapLeaves, labels, ihBody, ihRest]

namespace Method

variable {m : Method}

theorem Tidy.isLine_fullName (h : m.Tidy) : Text.IsLine m.fullName := by
  have line : '\n' ∉ m.fullName := List.not_mem_append h.className.line
    (List.not_mem_cons_of_ne_of_not_mem (by decide) h.shortId.line)
  refine ⟨?_, line⟩
  unfold fullName
  cases className : m.className with
  | nil => exact ⟨'.', m.shortId, rfl, by decide⟩
  | cons c t => exact ⟨c, _, rfl, h.className.start c (by rw [className]; rfl)⟩

theorem legible_regionSummary {r : Region} (kinds : Listing.Worded r)
    (descriptions : ∀ h ∈ Listing.regionHeads r, h.description.IsTidy) :
    (m.regionSummary r).Legible := by
  have captions : (m.regionSummary r).caption :: (m.regionSummary r).body.labels
      = (Listing.regionHeads r).map RegionHead.caption := by
    simp [regionSummary, Method.captions, Forest.labels_mapLeaves, Listing.regionHeads]
  rw [RegionSummary.Legible, captions]
  exact List.forall_mem_map.2 fun h hh => ⟨kinds h hh, descriptions h hh⟩

/-- A tidy method whose regions have words for kinds has a legible summary. -/
theorem Tidy.legible (h : m.Tidy) (kinds : ∀ r ∈ m.regions, Listing.Worded r) :
    m.summary.Legible where
  fullName := h.isLine_fullName
  instructions := by
    intro b hb i hi
    obtain ⟨j, hj, rfl⟩ := List.mem_map.1 hb
    obtain ⟨n, hn, rfl⟩ := List.mem_map.1 hi
    exact h.instructions j hj n hn
  region := by
    intro s hs
    obtain ⟨r, hr, rfl⟩ := Option.map_eq_some_iff.1 hs
    have mem := mem_regions_of_root hr
    exact legible_regionSummary (kinds r mem) (h.descriptions r mem)
  handlers := by
    intro s hs
    obtain ⟨handler, hh, rfl⟩ := List.mem_map.1 hs
    refine ⟨(h.catchTypes handler hh).line, fun s hs => ?_⟩
    obtain ⟨r, hr, rfl⟩ := Option.map_eq_some_iff.1 hs
    have mem := mem_regions_of_handler hh hr
    exact legible_regionSummary (kinds r mem) (h.descriptions r mem)

end Method

namespace Listing

/-- Methods with code that are read from listings have one outline exactly if they agree on
everything that an outline tells. -/
theorem parse_outline_eq_iff {text text' : Text} {ms ms' : List Method}
    (h : parse text = .ok ms) (h' : parse text' = .ok ms') {m m' : Method} (hm : m ∈ ms)
    (hm' : m' ∈ ms') (code : m.noCode = false) (code' : m'.noCode = false) (tidy : m.Tidy)
    (tidy' : m'.Tidy) : m.outline = m'.outline ↔ m.summary = m'.summary :=
  ⟨Method.summary_eq_of_outline_eq code code' (tidy.legible (worded_of_parse h hm))
      (tidy'.legible (worded_of_parse h' hm')),
    Method.outline_eq_of_summary_eq code code'⟩

/-- A listing of a method whose outline has a region that looks like a block, an instruction
without a text, and a last line that ends in a blank. -/
def plainListing : Text := Text.unlines
  [lit "method \"p.A\" \"f()V\" \x7b block 1 @ 0 -> 1 \x7b insn IF \"block 1\" else 1",
   lit "insn NOP \"\" \x7d region block \"1\" \x7b block 1 \x7d",
   lit "handler \"T\" \x7b region Catch \"\" \x7b \x7d \x7d \x7d"]

/-- A listing that says in addition what no outline tells. -/
def detailedListing : Text := Text.unlines
  [lit "method \"p.A\" \"f()V\" \x7b handler \"T\" \x7b region Catch \"\" [\"a\"] \x7b \x7d \x7d",
   lit "flags public region block \"1\" \x7b block 1 \x7d returns \"int\"",
   lit "block 01 @ 00 -> 1 \x7b insn if \"block 1\" else 1 [\"b\"] insn nop \"\" \x7d \x7d"]

def plainMethod : Method where
  className := lit "p.A"
  shortId := lit "f()V"
  blocks :=
    [{ id := 1, successors := [0],
       instructions := [{ opcode := .branch, text := lit "block 1", elseTarget := some 0 }, {}] }]
  listed := [0]
  region := some ⟨{ key := 0, kind := lit "block", description := ['1'] }, .leaf 0 .nil⟩
  handlers := [{ catchType := ['T'], region := some ⟨{ key := 1, kind := lit "Catch" }, .nil⟩ }]

def detailedMethod : Method :=
  { plainMethod with
    returnType := lit "int"
    flags := [lit "public"]
    blocks :=
      [{ id := 1, successors := [0],
         instructions := [{ opcode := .branch, text := lit "block 1", attributes := [['b']],
                            elseTarget := some 0 }, {}] }]
    handlers :=
      [{ catchType := ['T'],
         region := some ⟨{ key := 1, kind := lit "Catch", attributes := [['a']] }, .nil⟩ }] }

theorem detailedMethod_summary_eq :
    parse plainListing = .ok [plainMethod] ∧ parse detailedListing = .ok [detailedMethod] ∧
      plainMethod ≠ detailedMethod ∧ plainMethod.noCode = false ∧ detailedMethod.noCode = false ∧
      plainMethod.Tidy ∧ detailedMethod.Tidy ∧ plainMethod.outline = detailedMethod.outline ∧
      plainMethod.summary = detailedMethod.summary := by
  have plain : parse plainListing = .ok [plainMethod] := eq_ok_of_toOption (by decide +kernel)
  have detailed : parse detailedListing = .ok [detailedMethod] :=
    eq_ok_of_toOption (by decide +kernel)
  have tidy : plainMethod.Tidy := by decide +kernel
  have tidy' : detailedMethod.Tidy := by decide +kernel
  have same : plainMethod.outline = detailedMethod.outline := by decide +kernel
  exact ⟨plain, detailed, by decide +kernel, rfl, rfl, tidy, tidy', same,
    (parse_outline_eq_iff plain detailed List.mem_cons_self List.mem_cons_self rfl rfl tidy
      tidy').1 same⟩

end Listing

end FlowGraph
