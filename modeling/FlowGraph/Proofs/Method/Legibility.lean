import FlowGraph.Proofs.Listing.Match
import FlowGraph.Proofs.Method.Summary

/-!
# Outlines determine summaries

The lines that stand side by side below a line come in parts, and each part is found by the
letter that its lines start with.  Within a part each line determines what it was written for,
although it may have lost the blanks at its end.  An instruction may have no text and a region
no description, so these are the lines that can lose any.

A summary is legible if its names and texts do not run into what stands around them, and a
legible summary is determined by its outline (`Method.summary_eq_of_outline_eq`).
-/

namespace FlowGraph

open Listing (IsWord StopsAt isNameChar takeWhile_append_of_stopsAt)
open Sketch (Tree Part)

theorem eq_of_map_eq {α β : Type} {f : α → β} {as bs : List α}
    (inj : ∀ a ∈ as, ∀ b ∈ bs, f a = f b → a = b) (h : as.map f = bs.map f) : as = bs := by
  induction as generalizing bs with
  | nil => exact (List.map_eq_nil_iff.1 h.symm).symm
  | cons a as ih =>
      obtain ⟨b, cs, rfl, head, tail⟩ := List.map_eq_cons_iff.1 h.symm
      obtain rfl := inj a List.mem_cons_self b List.mem_cons_self head.symm
      rw [ih (fun a ha b hb => inj a (List.mem_cons_of_mem _ ha) b (List.mem_cons_of_mem _ hb))
        tail.symm]

theorem eq_of_map_toList_eq {α β : Type} {f : α → β} {x y : Option α}
    (inj : ∀ a ∈ x, ∀ b ∈ y, f a = f b → a = b) (h : x.toList.map f = y.toList.map f) : x = y := by
  have lists : x.toList = y.toList := eq_of_map_eq (by simpa using inj) h
  simpa using congrArg List.head? lists

/-! ## Attributes -/

theorem attributePart_inj {as bs : List Text}
    (h : (attributePart as).trimmed = (attributePart bs).trimmed) : as = bs := by
  simp only [Part.trimmed, attributePart] at h
  cases as with
  | nil =>
      cases bs with
      | nil => rfl
      | cons b bs => cases h
  | cons a as =>
      cases bs with
      | nil => cases h
      | cons b bs =>
          have line := congrArg Prod.fst (List.cons.inj h).1
          exact Text.delimited_quoted.list_injective
            ((Text.endsDark_list _).append_inj (Text.endsDark_list _) line)

/-! ## Words -/

theorem isBlank_of_isNameChar {c : Char} (h : isNameChar c = true) : Text.isBlank c = false := by
  rcases Bool.or_eq_true_iff.1 h with alphanum | underscore
  · rcases Bool.or_eq_true_iff.1 alphanum with alpha | digit
    · rcases Bool.or_eq_true_iff.1 alpha with upper | lower
      · have ends : 65 ≤ c.toNat ∧ c.toNat ≤ 90 := of_decide_eq_true upper
        exact Text.isBlank_of_visible (by omega) (by omega)
      · obtain ⟨first, last⟩ := Bool.and_eq_true_iff.1 lower
        have first : 97 ≤ c.toNat := of_decide_eq_true first
        have last : c.toNat ≤ 122 := of_decide_eq_true last
        exact Text.isBlank_of_visible (by omega) (by omega)
    · exact Text.isBlank_of_isDigit digit
  · cases of_decide_eq_true underscore
    decide

theorem Listing.IsWord.endsDark {w : Text} (h : IsWord w) : Text.EndsDark w := by
  obtain ⟨c, t, rfl, -, -⟩ := id h
  have last := List.dropLast_append_getLast (List.cons_ne_nil c t)
  refine ⟨_, _, last.symm, isBlank_of_isNameChar (h.forall_isNameChar _ ?_)⟩
  exact List.getLast_mem _

theorem Listing.IsWord.isLine {w : Text} (h : IsWord w) : Text.IsLine w := by
  refine ⟨?_, fun line => absurd (h.forall_isNameChar _ line) (by decide)⟩
  obtain ⟨c, t, rfl, -, -⟩ := id h
  exact ⟨c, t, rfl, isBlank_of_isNameChar (h.forall_isNameChar c List.mem_cons_self)⟩

theorem word_append_inj {v w s t : Text} (hv : IsWord v) (hw : IsWord w)
    (hs : StopsAt isNameChar s) (ht : StopsAt isNameChar t) (h : v ++ s = w ++ t) :
    v = w ∧ s = t := by
  have word := congrArg (List.takeWhile isNameChar) h
  rw [takeWhile_append_of_stopsAt hv.forall_isNameChar hs,
    takeWhile_append_of_stopsAt hw.forall_isNameChar ht] at word
  obtain rfl := word
  exact ⟨rfl, List.append_cancel_left h⟩

theorem stopsAt_trimEnd {c : Char} (h : isNameChar c = false) (t : Text) :
    StopsAt isNameChar (Text.trimEnd (c :: t)) := by
  intro d hd
  obtain ⟨u, first⟩ := List.head?_eq_some_iff.1 hd
  have same : d :: u <+: c :: t := first ▸ List.rdropWhile_prefix ..
  rw [(List.cons_prefix_cons.1 same).1, h]

/-! ## Instructions -/

theorem isWord_lower (o : Opcode) : IsWord (o.name.map Char.toLower) := by
  have all : ∀ o ∈ Opcode.all, IsWord (o.name.map Char.toLower) := by decide +kernel
  exact all o (Opcode.mem_all o)

/-- The name of an opcode in small letters determines it. -/
theorem ofName?_lower (o : Opcode) : Opcode.ofName? (o.name.map Char.toLower) = some o := by
  have all : ∀ o ∈ Opcode.all, Opcode.ofName? (o.name.map Char.toLower) = some o := by
    decide +kernel
  exact all o (Opcode.mem_all o)

/-- An instruction is read from its line, also where its text is empty. -/
theorem instructionLine_inj {i j : Opcode × Text} (hi : i.2.IsTidy) (hj : j.2.IsTidy)
    (h : Text.trimEnd (instructionLine i) = Text.trimEnd (instructionLine j)) : i = j := by
  rw [instructionLine, instructionLine, (isWord_lower i.1).endsDark.trimEnd_append,
    (isWord_lower j.1).endsDark.trimEnd_append] at h
  obtain ⟨name, text⟩ := word_append_inj (isWord_lower i.1) (isWord_lower j.1)
    (stopsAt_trimEnd (by decide) _) (stopsAt_trimEnd (by decide) _) h
  have opcode : some i.1 = some j.1 := by
    rw [← ofName?_lower, name, ofName?_lower]
  exact Prod.ext (Option.some.inj opcode) (hi.eq_of_trimEnd_eq hj text)

/-! ## Blocks -/

namespace BlockSummary

theorem line_eq (b : BlockSummary) :
    Text.trimEnd b.line
      = lit "block "
        ++ (Text.integer b.id ++ ' ' :: '@' :: ' ' :: (Text.offset b.offset ++ [':'])) := by
  have dark : Text.EndsDark b.line := ⟨_, ':', rfl, by decide⟩
  rw [dark.trimEnd_eq, line]
  simp [lit]

theorem line_inj {b c : BlockSummary} (h : Text.trimEnd b.line = Text.trimEnd c.line) :
    b.id = c.id ∧ b.offset = c.offset := by
  rw [line_eq, line_eq] at h
  obtain ⟨id, rest⟩ := Text.integer_append_inj (by simp) (by simp) (List.append_cancel_left h)
  injection rest with _ rest
  injection rest with _ rest
  injection rest with _ rest
  have stop : ∀ c ∈ [':'].head?, Dot.Reading.isHexDigit c = false := by
    rintro c ⟨⟩
    decide
  exact ⟨id, (Text.offset_append_inj stop stop rest).1⟩

theorem letters_parts (b : BlockSummary) : b.parts.map Part.letter = ['s', 'e', 'a', 'i'] := rfl

theorem eq_of_trimmed_eq {b c : BlockSummary} (hb : ∀ i ∈ b.instructions, i.2.IsTidy)
    (hc : ∀ i ∈ c.instructions, i.2.IsTidy) (line : Text.trimEnd b.line = Text.trimEnd c.line)
    (below : b.body.trimmed = c.body.trimmed) : b = c := by
  have parts := Sketch.map_trimmed_eq_of_whole (letters_parts b) (letters_parts c) (by decide) below
  simp only [BlockSummary.parts, List.map_cons, List.map_nil, List.cons.injEq, and_true] at parts
  obtain ⟨successors, other, attributes, instructions⟩ := parts
  simp only [Part.trimmed, List.map_cons, List.map_map, List.map_nil, List.cons.injEq, and_true]
    at successors other instructions
  obtain ⟨id, offset⟩ := line_inj line
  have successors : b.successors = c.successors :=
    Text.delimited_integer.list_injective
      ((Text.endsDark_list _).append_inj (Text.endsDark_list _) (congrArg Prod.fst successors))
  have other : b.elseTarget = c.elseTarget := by
    refine eq_of_map_toList_eq (fun y _ z _ same => ?_) other
    exact Dot.Reading.integer_injective
      ((Text.endsDark_integer y).append_inj (Text.endsDark_integer z) (congrArg Prod.fst same))
  have instructions : b.instructions = c.instructions := by
    have lines := Sketch.map_trimmed_eq (congrArg Prod.snd instructions)
    rw [List.map_map, List.map_map] at lines
    refine eq_of_map_eq (fun i hi j hj same => ?_) lines
    exact instructionLine_inj (hb i hi) (hc j hj) (congrArg Prod.fst same)
  exact BlockSummary.ext id offset successors other (attributePart_inj attributes) instructions

end BlockSummary

/-! ## Regions -/

/-- Whether the line of a region is told from other lines. -/
structure RegionCaption.Legible (c : RegionCaption) : Prop where
  /-- The kind is a word. -/
  kind : IsWord c.kind
  /-- The description is tidy. -/
  description : c.description.IsTidy

/-- Whether the lines of a region and of the regions inside it are told from other lines. -/
def RegionSummary.Legible (r : RegionSummary) : Prop := ∀ c ∈ r.caption :: r.body.labels, c.Legible

namespace RegionCaption

variable {c d : RegionCaption}

theorem trimEnd_line (h : c.Legible) :
    Text.trimEnd c.line = c.kind ++ ':' :: Text.trimEnd (' ' :: c.description) := by
  rw [line, List.append_assoc, h.kind.endsDark.trimEnd_append]
  exact congrArg (c.kind ++ ·) (Text.trimEnd_cons (by decide) _)

theorem line_inj (hc : c.Legible) (hd : d.Legible)
    (h : Text.trimEnd c.line = Text.trimEnd d.line) : c = d := by
  rw [trimEnd_line hc, trimEnd_line hd] at h
  obtain ⟨kind, rest⟩ := word_append_inj hc.kind hd.kind (by rintro _ ⟨⟩; decide)
    (by rintro _ ⟨⟩; decide) h
  exact RegionCaption.ext kind
    (hc.description.eq_of_trimEnd_eq hd.description (List.cons.inj rest).2)

/-- Behind the word of a block stands a blank, and behind that of a region a colon. -/
theorem line_ne_block (h : c.Legible) (z : Int) :
    Text.trimEnd (lit "block " ++ Text.integer z) ≠ Text.trimEnd c.line := by
  rw [((Text.endsDark_integer z).append _).trimEnd_eq, trimEnd_line h]
  intro same
  have word : IsWord (lit "block") := by decide
  have rest := (word_append_inj (s := ' ' :: Text.integer z) word h.kind
    (by rintro _ ⟨⟩; decide) (by rintro _ ⟨⟩; decide) same).2
  exact absurd (List.cons.inj rest).1 (by decide)

end RegionCaption

theorem ofRegions_inj {f g : Forest RegionCaption Int} (hf : ∀ c ∈ f.labels, c.Legible)
    (hg : ∀ c ∈ g.labels, c.Legible)
    (h : (Sketch.ofRegions f).trimmed = (Sketch.ofRegions g).trimmed) : f = g := by
  induction f generalizing g with
  | nil =>
      cases g with
      | nil => rfl
      | leaf | node => cases h
  | leaf y rest ih =>
      cases g with
      | nil => cases h
      | leaf z rest' =>
          have hg : ∀ c ∈ rest'.labels, c.Legible := hg
          injection h with line _ after
          rw [ih hf hg after, Dot.Reading.integer_injective
            ((Text.endsDark_integer y).append_inj (Text.endsDark_integer z) line)]
      | node d body rest' =>
          injection h with line
          exact absurd line (RegionCaption.line_ne_block (hg d List.mem_cons_self) y)
  | node c body rest ihBody ihRest =>
      obtain ⟨hc, below, after⟩ := Forest.forall_mem_labels_node.1 hf
      cases g with
      | nil => cases h
      | leaf z rest' =>
          injection h with line
          exact absurd line.symm (RegionCaption.line_ne_block hc z)
      | node d body' rest' =>
          obtain ⟨hd, below', after'⟩ := Forest.forall_mem_labels_node.1 hg
          injection h with line inner outer
          rw [RegionCaption.line_inj hc hd line, ihBody below below' inner,
            ihRest after after' outer]

theorem ofRegion_inj {r s : RegionSummary} (hr : r.Legible) (hs : s.Legible)
    (h : (Sketch.ofRegion r).trimmed = (Sketch.ofRegion s).trimmed) : r = s := by
  obtain ⟨hr, below⟩ := List.forall_mem_cons.1 hr
  obtain ⟨hs, below'⟩ := List.forall_mem_cons.1 hs
  injection h with line inner
  exact RegionSummary.ext (RegionCaption.line_inj hr hs line) (ofRegions_inj below below' inner)

theorem ofRegion?_inj {r s : Option RegionSummary} (hr : ∀ t ∈ r, t.Legible)
    (hs : ∀ t ∈ s, t.Legible)
    (h : (Sketch.ofRegion? r).trimmed = (Sketch.ofRegion? s).trimmed) : r = s := by
  cases r with
  | none =>
      cases s with
      | none => rfl
      | some s => cases h
  | some r =>
      cases s with
      | none => cases h
      | some s => exact congrArg some (ofRegion_inj (hr r rfl) (hs s rfl) h)

/-! ## Methods -/

/-- Whether the lines of a handler are told from other lines. -/
structure HandlerSummary.Legible (h : HandlerSummary) : Prop where
  /-- The catch type fits on a line. -/
  catchType : '\n' ∉ h.catchType
  /-- The lines of the region are told from other lines. -/
  region : ∀ r ∈ h.region, r.Legible

/-- Whether the lines of a summary are told from other lines. -/
structure Summary.Legible (s : Summary) : Prop where
  /-- The full name fits on a line. -/
  fullName : Text.IsLine s.fullName
  /-- The texts of the instructions are tidy. -/
  instructions : ∀ b ∈ s.blocks, ∀ i ∈ b.instructions, i.2.IsTidy
  /-- The lines of the region tree are told from other lines. -/
  region : ∀ r ∈ s.region, r.Legible
  /-- The lines of the handlers are told from other lines. -/
  handlers : ∀ h ∈ s.handlers, h.Legible

theorem colon_inj {s t : Text} (h : Text.trimEnd (s ++ lit ":") = Text.trimEnd (t ++ lit ":")) :
    s = t := by
  have dark : ∀ u : Text, Text.EndsDark (u ++ lit ":") := fun u => ⟨u, ':', rfl, by decide⟩
  rw [(dark s).trimEnd_eq, (dark t).trimEnd_eq] at h
  exact List.append_cancel_right h

theorem endsDark_entryText (entry : Option Int) : Text.EndsDark (entryText entry) := by
  cases entry with
  | none => exact ⟨[], '-', rfl, by decide⟩
  | some z => exact Text.endsDark_integer z

theorem entryText_injective {y z : Option Int} (h : entryText y = entryText z) : y = z := by
  have ne : ∀ z, Text.integer z ≠ lit "-" := by
    intro z same
    obtain ⟨t, c, written, digit⟩ := Text.exists_integer_concat z
    have mem : c ∈ lit "-" := by
      rw [← same, written]
      simp
    rw [List.mem_singleton.1 mem] at digit
    cases digit
  cases y with
  | none =>
      cases z with
      | none => rfl
      | some z => exact absurd h.symm (ne z)
  | some y =>
      cases z with
      | none => exact absurd h (ne y)
      | some z => exact congrArg some (Dot.Reading.integer_injective h)

namespace Summary

theorem letters_parts (s : Summary) : s.parts.map Part.letter = ['e', 'a', 'b', 'r', 'h'] := rfl

theorem eq_of_trimmed_eq {s t : Summary} (hs : s.Legible) (ht : t.Legible)
    (h : s.sketch.trimmed = t.sketch.trimmed) : s = t := by
  injection h with line below
  have parts := Sketch.map_trimmed_eq_of_whole (letters_parts s) (letters_parts t) (by decide) below
  simp only [Summary.parts, List.map_cons, List.map_nil, List.cons.injEq, and_true] at parts
  obtain ⟨entry, attributes, blocks, region, handlers⟩ := parts
  simp only [Part.trimmed, List.map_cons, List.map_map, List.map_nil, List.cons.injEq, and_true]
    at entry blocks region handlers
  have fullName : s.fullName = t.fullName := colon_inj line
  have entry : s.entry = t.entry :=
    entryText_injective
      ((endsDark_entryText _).append_inj (endsDark_entryText _) (congrArg Prod.fst entry))
  have blocks : s.blocks = t.blocks := by
    refine eq_of_map_eq (fun b hb c hc same => ?_) blocks
    exact BlockSummary.eq_of_trimmed_eq (hs.instructions b hb) (ht.instructions c hc)
      (congrArg Prod.fst same) (congrArg Prod.snd same)
  have region : s.region = t.region := by
    refine eq_of_map_toList_eq (fun r hr r' hr' same => ?_) region
    exact ofRegion_inj (hs.region r hr) (ht.region r' hr') (congrArg Prod.snd same)
  have handlers : s.handlers = t.handlers := by
    refine eq_of_map_eq (fun h hh h' hh' same => ?_) handlers
    have catchType := List.append_cancel_left
      (colon_inj (t := lit "handler " ++ h'.catchType) (congrArg Prod.fst same))
    exact HandlerSummary.ext catchType
      (ofRegion?_inj (hs.handlers h hh).region (ht.handlers h' hh').region (congrArg Prod.snd same))
  exact Summary.ext fullName entry (attributePart_inj attributes) blocks region handlers

end Summary

/-! ## A legible summary is written in readable lines -/

theorem readable_attributePart (as : List Text) : ∀ p ∈ (attributePart as).trees, p.Readable := by
  unfold attributePart
  split
  · exact List.forall_mem_nil _
  · refine List.forall_mem_singleton.2 (Sketch.readable_single ?_)
    refine Text.IsLine.append (by decide) (Text.line_not_mem_list ?_)
    exact List.forall_mem_map.2 fun t _ => Text.line_not_mem_quoted t

theorem isLine_instructionLine {i : Opcode × Text} (h : i.2.IsTidy) :
    Text.IsLine (instructionLine i) :=
  (isWord_lower i.1).isLine.append (List.not_mem_cons_of_ne_of_not_mem (by decide) h.line)

namespace BlockSummary

variable {b : BlockSummary}

theorem isLine_line : Text.IsLine b.line := by
  refine Text.IsLine.append ?_ (by decide)
  refine Text.IsLine.append ?_ (Text.line_not_mem_offset _)
  refine Text.IsLine.append ?_ (by decide)
  exact Text.IsLine.append (by decide) (Text.line_not_mem_integer _)

theorem readable_body (h : ∀ i ∈ b.instructions, i.2.IsTidy) : b.body.Readable := by
  have successors : Text.IsLine (lit "successors: " ++ Text.list (b.successors.map Text.integer)) :=
    Text.IsLine.append (by decide)
      (Text.line_not_mem_list (List.forall_mem_map.2 fun z _ => Text.line_not_mem_integer z))
  have other : ∀ z, Text.IsLine (lit "else: " ++ Text.integer z) := fun z =>
    Text.IsLine.append (by decide) (Text.line_not_mem_integer z)
  have heading : Text.IsLine (lit "instructions:") := by decide
  have instructions : ∀ i ∈ b.instructions, (Tree.single (instructionLine i)).Readable :=
    fun i hi => Sketch.readable_single (isLine_instructionLine (h i hi))
  refine Sketch.readable_of (Sketch.forall_mem_whole.2 ?_)
  simp only [parts, List.forall_mem_cons, List.forall_mem_map]
  exact ⟨⟨Sketch.readable_single successors, List.forall_mem_nil _⟩,
    fun z _ => Sketch.readable_single (other z), readable_attributePart _,
    ⟨⟨heading, Sketch.readable_of (List.forall_mem_map.2 instructions)⟩, List.forall_mem_nil _⟩,
    List.forall_mem_nil _⟩

end BlockSummary

theorem RegionCaption.isLine_line {c : RegionCaption} (h : c.Legible) : Text.IsLine c.line :=
  (h.kind.isLine.append (by decide)).append h.description.line

theorem readable_ofRegions {f : Forest RegionCaption Int} (h : ∀ c ∈ f.labels, c.Legible) :
    (Sketch.ofRegions f).Readable := by
  induction f with
  | nil => exact Sketch.readable_nil
  | leaf z rest ih =>
      have line : Text.IsLine (lit "block " ++ Text.integer z) :=
        Text.IsLine.append (by decide) (Text.line_not_mem_integer z)
      exact Sketch.readable_node.2 ⟨line, Sketch.readable_nil, ih h⟩
  | node c body rest ihBody ihRest =>
      obtain ⟨hc, below, after⟩ := Forest.forall_mem_labels_node.1 h
      exact Sketch.readable_node.2 ⟨RegionCaption.isLine_line hc, ihBody below, ihRest after⟩

theorem readable_ofRegion {r : RegionSummary} (h : r.Legible) :
    (Sketch.ofRegion r).Readable := by
  obtain ⟨caption, below⟩ := List.forall_mem_cons.1 h
  exact Sketch.readable_node.2
    ⟨RegionCaption.isLine_line caption, readable_ofRegions below, Sketch.readable_nil⟩

theorem readable_ofRegion? {r : Option RegionSummary} (h : ∀ s ∈ r, s.Legible) :
    (Sketch.ofRegion? r).Readable := by
  cases r with
  | none => exact Sketch.readable_nil
  | some r => exact readable_ofRegion (h r rfl)

theorem line_not_mem_entryText (entry : Option Int) : '\n' ∉ entryText entry := by
  cases entry with
  | none => decide
  | some z => exact Text.line_not_mem_integer z

namespace Summary

theorem readable_sketch {s : Summary} (h : s.Legible) : s.sketch.Readable := by
  have entry : Text.IsLine (lit "entry: " ++ entryText s.entry) :=
    Text.IsLine.append (by decide) (line_not_mem_entryText _)
  have regions : Text.IsLine (lit "regions:") := by decide
  have handler : ∀ x ∈ s.handlers, Text.IsLine (lit "handler " ++ x.catchType ++ lit ":") :=
    fun x hx =>
      (Text.IsLine.append (by decide) (h.handlers x hx).catchType).append (by decide)
  refine Sketch.readable_node.2 ⟨h.fullName.append (by decide),
    Sketch.readable_of (Sketch.forall_mem_whole.2 ?_), Sketch.readable_nil⟩
  simp only [parts, List.forall_mem_cons, List.forall_mem_map]
  exact ⟨⟨Sketch.readable_single entry, List.forall_mem_nil _⟩, readable_attributePart _,
    fun b hb => ⟨b.isLine_line, BlockSummary.readable_body (h.instructions b hb)⟩,
    fun r hr => ⟨regions, readable_ofRegion (h.region r (Option.mem_toList.1 hr))⟩,
    fun x hx => ⟨handler x hx, readable_ofRegion? (h.handlers x hx).region⟩,
    List.forall_mem_nil _⟩

end Summary

/-- Legible methods with one outline have one summary. -/
theorem Method.summary_eq_of_outline_eq {m m' : Method} (code : m.noCode = false)
    (code' : m'.noCode = false) (h : m.summary.Legible) (h' : m'.summary.Legible)
    (same : m.outline = m'.outline) : m.summary = m'.summary := by
  simp only [outline, code, code', Bool.false_eq_true, if_false, outlineLines_eq] at same
  exact Summary.eq_of_trimmed_eq h h'
    (Sketch.trimmed_eq_of_written (Summary.readable_sketch h) (Summary.readable_sketch h')
      (by simp [Summary.sketch]) (by simp [Summary.sketch]) same)

/-- Methods with one summary have one outline. -/
theorem Method.outline_eq_of_summary_eq {m m' : Method} (code : m.noCode = false)
    (code' : m'.noCode = false) (same : m.summary = m'.summary) : m.outline = m'.outline := by
  simp only [outline, code, code', Bool.false_eq_true, if_false, outlineLines_eq, same]

end FlowGraph
