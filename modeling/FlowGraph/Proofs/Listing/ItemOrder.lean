import FlowGraph.Proofs.Listing.FirstBreach

/-!
# The order of items

The items of a method have nine kinds.  `Rearranged` says that two lists have the same items and
agree on the order within each kind, by listing the items of one kind after the other.

Whether a method makes sense is said of its items in no order, but for the order of its blocks
(`MethodTree.MakesSense.of_rearranged`).  An item is resolved to one of its own kind and
depends on the others through the numbers of the blocks alone (`Item.ResolvesTo`).  What is
assembled from resolved items comes from one kind at a time (`assemble_of_rearranged`).  So a
method is loaded to the same whichever way its items are rearranged (`load_iff_of_rearranged`).
-/

namespace FlowGraph.Listing

/-! ## Kinds of items -/

/-- A kind of item. -/
inductive ItemKind where
  | flags | returns | args | attrs | nocode | entry | block | region | handler
deriving DecidableEq, Repr

/-- The kind of a clause. -/
def Clause.kind : Clause → ItemKind
  | flags _ => .flags
  | returns _ => .returns
  | args .. => .args
  | attrs _ => .attrs
  | nocode => .nocode
  | entry _ => .entry
  | region _ => .region
  | handler .. => .handler

/-- The kind of an item. -/
def Item.kind : Item → ItemKind
  | block _ => .block
  | clause c => c.kind

/-- The kind of the item that was resolved. -/
def Resolved.kind : Resolved → ItemKind
  | block _ => .block
  | flags _ => .flags
  | returns _ => .returns
  | arguments _ => .args
  | attributes _ => .attrs
  | noCode => .nocode
  | entry _ => .entry
  | region _ => .region
  | handler _ => .handler

/-! ## Rearranging -/

section Rearranged

variable {α β : Type} {kind : α → ItemKind} {as bs : List α}

/-- Whether two lists are the same kind by kind. -/
def Rearranged (kind : α → ItemKind) (as bs : List α) : Prop :=
  ∀ k, as.filter (kind · = k) = bs.filter (kind · = k)

theorem Rearranged.symm (h : Rearranged kind as bs) : Rearranged kind bs as := fun k => (h k).symm

/-- Nothing is added or lost, since everything has a kind. -/
theorem Rearranged.perm [DecidableEq α] (h : Rearranged kind as bs) : as.Perm bs := by
  refine List.perm_iff_count.2 fun a => ?_
  have own : ∀ l : List α, (l.filter (kind · = kind a)).count a = l.count a := fun l =>
    List.count_filter (by simp)
  rw [← own as, h (kind a), own bs]

/-- What is gathered from one kind stays the same. -/
theorem Rearranged.flatMap_eq (h : Rearranged kind as bs) (k : ItemKind) {f : α → List β}
    (others : ∀ a, kind a ≠ k → f a = []) : as.flatMap f = bs.flatMap f := by
  have ofKind : ∀ l : List α, l.flatMap f = (l.filter (kind · = k)).flatMap f := by
    intro l
    induction l with
    | nil => rfl
    | cons a l ih =>
        by_cases same : kind a = k
        · rw [List.filter_cons_of_pos (by simpa using same), List.flatMap_cons, List.flatMap_cons,
            ih]
        · rw [List.filter_cons_of_neg (by simpa using same), List.flatMap_cons, others a same, ih,
            List.nil_append]
  rw [ofKind as, h k, ← ofKind bs]

theorem Rearranged.filterMap_eq (h : Rearranged kind as bs) (k : ItemKind) {f : α → Option β}
    (others : ∀ a, kind a ≠ k → f a = none) : as.filterMap f = bs.filterMap f := by
  rw [List.filterMap_eq_flatMap_toList, List.filterMap_eq_flatMap_toList]
  exact h.flatMap_eq k fun a other => by rw [others a other, Option.toList_none]

/-- Some of the kinds may be put before the others. -/
theorem rearranged_split (kind : α → ItemKind) (first : ItemKind → Bool) (as : List α) :
    Rearranged kind as
      (as.filter (fun a => first (kind a)) ++ as.filter fun a => !first (kind a)) := by
  intro k
  have none : ∀ p : α → Bool, (∀ a, kind a = k → p a = false) →
      (as.filter p).filter (kind · = k) = [] := by
    intro p others
    rw [List.filter_filter, List.filter_eq_nil_iff]
    rintro a - both
    rw [Bool.and_eq_true, decide_eq_true_eq] at both
    rw [others a both.1] at both
    exact Bool.false_ne_true both.2
  have all : ∀ p : α → Bool, (∀ a, kind a = k → p a = true) →
      (as.filter p).filter (kind · = k) = as.filter (kind · = k) := by
    intro p own
    rw [List.filter_filter]
    refine List.filter_congr fun a _ => ?_
    by_cases here : kind a = k
    · simp [here, own a here]
    · simp [here]
  rw [List.filter_append]
  cases front : first k with
  | true =>
      rw [all _ fun a same => same ▸ front, none _ fun a same => by rw [same, front]; rfl,
        List.append_nil]
  | false =>
      rw [none _ fun a same => same ▸ front, all _ fun a same => by rw [same, front]; rfl,
        List.nil_append]

end Rearranged

/-! ## Making sense -/

theorem MethodTree.exists_load_iff {t : MethodTree} : (∃ m, t.load = .ok m) ↔ t.MakesSense := by
  rw [t.heeds_load.eq_ok_iff, makesSense_iff]

section

variable {t : MethodTree} {items : List Item} (h : Rearranged Item.kind t.items items)

include h

/-- The blocks are declared in the same order. -/
theorem blocks_of_rearranged : { t with items := items }.blocks = t.blocks := by
  refine (h.filterMap_eq .block fun i other => ?_).symm
  cases i with
  | block b => exact absurd rfl other
  | clause c => rfl

theorem ids_of_rearranged : { t with items := items }.ids = t.ids :=
  congrArg (List.map BlockTree.number) (blocks_of_rearranged h)

theorem MethodTree.MakesSense.of_rearranged (sense : t.MakesSense) :
    { t with items := items }.MakesSense := by
  have blocks := blocks_of_rearranged h
  have ids := ids_of_rearranged h
  have mem : ∀ i ∈ items, i ∈ t.items := fun i hi => h.perm.mem_iff.2 hi
  exact {
    ids_nodup := ids.symm ▸ sense.ids_nodup
    opcode_known := blocks.symm ▸ sense.opcode_known
    reference_declared := fun i hi d hd => ids.symm ▸ sense.reference_declared i (mem i hi) d hd
    else_branch := blocks.symm ▸ sense.else_branch
    else_successor := blocks.symm ▸ sense.else_successor
    one_region := h.perm.countP_eq Item.isRegion ▸ sense.one_region
    digits_short := fun i hi => sense.digits_short i (mem i hi) }

end

/-! ## Resolving an item on its own -/

/-- Whether the two passes make this of an item, where references are resolved in a scope. -/
def Item.ResolvesTo (s : Scope) (i : Item) (r : Resolved) : Prop :=
  ∃ d, Declares i d ∧ s.Resolves d r

theorem resolvesTo_of_passes {s : Scope} {items : List Item} {ds : List Declaration}
    {rs : List Resolved} (declares : List.Forall₂ Declares items ds)
    (resolves : List.Forall₂ s.Resolves ds rs) : List.Forall₂ (Item.ResolvesTo s) items rs := by
  induction declares generalizing rs with
  | nil =>
      cases resolves
      exact .nil
  | cons hd _ ih =>
      cases resolves with
      | cons hr later => exact .cons ⟨_, hd, hr⟩ (ih later)

namespace Item.ResolvesTo

variable {s : Scope} {i : Item} {r r' : Resolved}

/-- A resolved item is of the kind of the item. -/
theorem kind_eq (h : i.ResolvesTo s r) : r.kind = i.kind := by
  obtain ⟨d, declares, resolves⟩ := h
  cases i with
  | block tree =>
      obtain ⟨b, -, rfl⟩ := declares
      obtain ⟨b', -, rfl⟩ := resolves
      rfl
  | clause c =>
      cases declares
      cases c with
      | entry digits =>
          obtain ⟨i, -, ⟨⟩⟩ := bind_eq_ok_iff.1 resolves
          rfl
      | region tree =>
          obtain ⟨r, -, ⟨⟩⟩ := bind_eq_ok_iff.1 resolves
          rfl
      | handler catchType tree =>
          obtain ⟨r, -, ⟨⟩⟩ := bind_eq_ok_iff.1 resolves
          rfl
      | _ =>
          cases resolves
          rfl

/-- An item is resolved in one way. -/
theorem unique (h : i.ResolvesTo s r) (h' : i.ResolvesTo s r') : r = r' := by
  obtain ⟨d, declares, resolves⟩ := h
  obtain ⟨d', declares', resolves'⟩ := h'
  cases i with
  | block tree =>
      obtain ⟨b, declared, rfl⟩ := declares
      obtain ⟨b', declared', rfl⟩ := declares'
      cases declared.symm.trans declared'
      obtain ⟨c, linked, rfl⟩ := resolves
      obtain ⟨c', linked', rfl⟩ := resolves'
      cases linked.symm.trans linked'
      rfl
  | clause c =>
      cases declares
      cases declares'
      cases resolves.symm.trans resolves'
      rfl

end Item.ResolvesTo

/-- Rearranged items are resolved to what the items were resolved to, rearranged alike. -/
theorem Rearranged.resolved {s : Scope} {items items' : List Item} {rs rs' : List Resolved}
    (h : Rearranged Item.kind items items') (resolves : List.Forall₂ (Item.ResolvesTo s) items rs)
    (resolves' : List.Forall₂ (Item.ResolvesTo s) items' rs') :
    Rearranged Resolved.kind rs rs' := by
  have unique : Relator.RightUnique (Item.ResolvesTo s) := fun _ _ _ h h' => h.unique h'
  intro k
  have same : ∀ ⦃i : Item⦄ ⦃r : Resolved⦄, i.ResolvesTo s r →
      (decide (i.kind = k) = true ↔ decide (r.kind = k) = true) := by
    intro i r h
    rw [h.kind_eq]
  have filtered := List.rel_filter same resolves
  rw [h k] at filtered
  exact unique.forall₂ filtered (List.rel_filter same resolves')

/-- Each part of a method is assembled from one kind of item. -/
theorem assemble_of_rearranged {rs rs' : List Resolved} (h : Rearranged Resolved.kind rs rs')
    (className shortId : Text) :
    assemble className shortId rs = assemble className shortId rs' := by
  unfold assemble
  rw [h.filterMap_eq .block, h.filterMap_eq .region, h.filterMap_eq .handler,
    h.filterMap_eq .returns, h.flatMap_eq .args, h.flatMap_eq .flags, h.flatMap_eq .attrs,
    h.perm.any_eq, h.filterMap_eq .entry]
  all_goals
    intro r other
    cases r <;> first | rfl | exact absurd rfl other

/-! ## Loading -/

theorem load_of_rearranged {t : MethodTree} {items : List Item}
    (h : Rearranged Item.kind t.items items) {m : Method} (loaded : t.load = .ok m) :
    { t with items := items }.load = .ok m := by
  obtain ⟨m', loaded'⟩ := MethodTree.exists_load_iff.2
    (MethodTree.MakesSense.of_rearranged h (MethodTree.exists_load_iff.1 ⟨m, loaded⟩))
  obtain ⟨ds, rs, declares, -, resolves, -, rfl⟩ := MethodTree.load_eq_ok_iff.1 loaded
  obtain ⟨ds', rs', declares', -, resolves', -, rfl⟩ := MethodTree.load_eq_ok_iff.1 loaded'
  have ids : ds'.filterMap Declaration.id? = ds.filterMap Declaration.id? := by
    rw [ids_of_declares declares', ids_of_declares declares]
    exact congrArg (List.map Nat.cast) (ids_of_rearranged h)
  rw [ids] at resolves'
  have resolved := h.resolved (resolvesTo_of_passes declares resolves)
    (resolvesTo_of_passes declares' resolves')
  rw [loaded', assemble_of_rearranged resolved]

/-- A method is loaded, and to the same, whichever way its items are rearranged, as long as
items of one kind keep their order.  So the items of some kinds may all be put before the
others, such as the blocks before or behind all that refers to them. -/
theorem load_iff_of_rearranged (t : MethodTree) :
    (∀ items, Rearranged Item.kind t.items items →
      ∀ m, t.load = .ok m ↔ { t with items := items }.load = .ok m) ∧
    ∀ (first : ItemKind → Bool) (m : Method), t.load = .ok m ↔
      { t with items := t.items.filter (fun i : Item => first i.kind)
                ++ t.items.filter fun i : Item => !first i.kind }.load = .ok m := by
  have either : ∀ items, Rearranged Item.kind t.items items →
      ∀ m, t.load = .ok m ↔ { t with items := items }.load = .ok m := by
    intro items h m
    constructor
    · exact load_of_rearranged h
    · intro loaded
      exact load_of_rearranged (t := { t with items := items }) h.symm loaded
  exact ⟨either, fun first => either _ (rearranged_split Item.kind first t.items)⟩

/-- A method that refers to its blocks before it declares them, with two items of some kinds. -/
def scatteredTree : MethodTree where
  className := lit "\"p.A\""
  shortId := lit "\"f()V\""
  items :=
    [.clause (.entry ['7']), .clause (.flags [lit "public"]),
     .clause (.region ⟨⟨['R'], lit "\"\"", none⟩, .leaf ['1'] (.leaf ['2'] .nil)⟩),
     .block ⟨['2'], ['0'], [['1'], ['7']], none, [⟨lit "if", lit "\"x\"", some ['7'], none⟩]⟩,
     .clause (.returns (lit "\"int\"")), .clause (.handler none none),
     .block ⟨['7'], ['8'], [['2']], none, []⟩, .clause (.flags [lit "static"]),
     .clause (.handler (some (lit "\"E\"")) (some ⟨⟨['C'], lit "\"\"", none⟩, .leaf ['7'] .nil⟩)),
     .clause (.entry ['1']), .clause (.args (lit "\"int\"") []), .clause .nocode,
     .clause (.returns (lit "\"long\"")), .block ⟨['1'], ['4'], [], none, []⟩]

/-- Its items with the blocks first and the kinds apart. -/
def sortedItems : List Item :=
  [.block ⟨['2'], ['0'], [['1'], ['7']], none, [⟨lit "if", lit "\"x\"", some ['7'], none⟩]⟩,
   .block ⟨['7'], ['8'], [['2']], none, []⟩, .block ⟨['1'], ['4'], [], none, []⟩,
   .clause .nocode, .clause (.args (lit "\"int\"") []),
   .clause (.returns (lit "\"int\"")), .clause (.returns (lit "\"long\"")),
   .clause (.flags [lit "public"]), .clause (.flags [lit "static"]),
   .clause (.handler none none),
   .clause (.handler (some (lit "\"E\"")) (some ⟨⟨['C'], lit "\"\"", none⟩, .leaf ['7'] .nil⟩)),
   .clause (.entry ['7']), .clause (.entry ['1']),
   .clause (.region ⟨⟨['R'], lit "\"\"", none⟩, .leaf ['1'] (.leaf ['2'] .nil)⟩)]

/-- The method of both. -/
def scatteredMethod : Method where
  className := lit "p.A"
  shortId := lit "f()V"
  returnType := lit "long"
  arguments := [lit "int"]
  flags := [lit "public", lit "static"]
  blocks :=
    [{ id := 2, successors := [2, 1],
       instructions := [{ opcode := .branch, text := ['x'], elseTarget := some 1 }] },
     { id := 7, offset := 8, successors := [0] }, { id := 1, offset := 4 }]
  listed := [0, 1, 2]
  region := some ⟨{ key := 0, kind := ['R'] }, .leaf 2 (.leaf 0 .nil)⟩
  handlers :=
    [{}, { catchType := ['E'], region := some ⟨{ key := 1, kind := ['C'] }, .leaf 1 .nil⟩ }]
  noCode := true
  entry := some 2

theorem scatteredTree_rearranged :
    Rearranged Item.kind scatteredTree.items sortedItems ∧
      scatteredTree.load = .ok scatteredMethod ∧
      { scatteredTree with items := sortedItems }.load = .ok scatteredMethod := by
  have rearranged : Rearranged Item.kind scatteredTree.items sortedItems := by
    intro k
    cases k <;> decide +kernel
  have loaded : scatteredTree.load = .ok scatteredMethod := eq_ok_of_toOption (by decide +kernel)
  exact ⟨rearranged, loaded, ((load_iff_of_rearranged _).1 _ rearranged _).1 loaded⟩

end FlowGraph.Listing
