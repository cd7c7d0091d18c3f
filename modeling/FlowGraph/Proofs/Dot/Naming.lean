import FlowGraph.Proofs.Dot.Clusters
import FlowGraph.Proofs.Dot.FlatGraph

/-!
# Naming one subject after another

The names that a numbering gives are those of its last state: a region that has been named
keeps its number whatever is named later (`Numbering.number_after`), and what has been named
in the end are the regions in the order in which they first appear (`Numbering.seen_after`).

So a name is a function of the subject, and `named_distinguishes` says that it tells the
subjects apart.  The kinds of two regions may agree but for characters that no name has, and
a kind may end in digits.  It is the number behind the last underscore that tells two regions
apart (`number_eq_of_clusterName_eq`).
-/

namespace FlowGraph.Dot

/-! ## Subjects -/

namespace Subject

/-- The key of a region. -/
def key? : Subject → Option Nat
  | block _ => none
  | region key _ => some key

/-- Whether two subjects are the same: blocks by their numbers and regions by their keys. -/
def Same : Subject → Subject → Prop
  | block id, block id' => id = id'
  | region key _, region key' _ => key = key'
  | _, _ => False

instance : (t u : Subject) → Decidable (t.Same u)
  | block id, block id' => inferInstanceAs (Decidable (id = id'))
  | region key _, region key' _ => inferInstanceAs (Decidable (key = key'))
  | block _, region .. | region .., block _ => inferInstanceAs (Decidable False)

end Subject

/-- Whether every region among some subjects has one kind. -/
def OneKind (ts : List Subject) : Prop := ∀ t ∈ ts, ∀ u ∈ ts, t.Same u → t = u

instance (ts : List Subject) : Decidable (OneKind ts) := by
  unfold OneKind
  infer_instance

/-- The regions among some subjects, each once, in the order in which they first appear. -/
def appearances (ts : List Subject) : List Nat := (ts.filterMap Subject.key?).eraseDups

namespace Numbering

/-! ## Naming several subjects -/

/-- Subjects with the names given to them one after another. -/
def named : Numbering → List Subject → List (Subject × Text)
  | _, [] => []
  | n, t :: ts => (t, (n.name t).1) :: named (n.name t).2 ts

/-- The numbering after some subjects have been named. -/
def after (n : Numbering) (ts : List Subject) : Numbering :=
  ts.foldl (fun n t => (n.name t).2) n

theorem after_cons (n : Numbering) (t : Subject) (ts : List Subject) :
    n.after (t :: ts) = (n.name t).2.after ts := rfl

/-- Naming subjects adds the regions among them that have not been named. -/
theorem seen_after (n : Numbering) (ts : List Subject) :
    (n.after ts).seen = n.seen ++ ((ts.filterMap Subject.key?).removeAll n.seen).eraseDups := by
  induction ts generalizing n with
  | nil => exact (List.append_nil _).symm
  | cons t ts ih =>
      rw [after_cons, ih]
      cases t with
      | block id => rfl
      | region key kind =>
          show (n.note key).seen
            ++ ((ts.filterMap Subject.key?).removeAll (n.note key).seen).eraseDups
            = n.seen ++ ((key :: ts.filterMap Subject.key?).removeAll n.seen).eraseDups
          by_cases mem : key ∈ n.seen
          · rw [note, if_pos mem]
            simp [List.removeAll, mem]
          · have others : (ts.filterMap Subject.key?).removeAll (n.seen ++ [key])
                = ((ts.filterMap Subject.key?).removeAll n.seen).filter (fun k => !k == key) := by
              simp only [List.removeAll, List.filter_filter]
              refine List.filter_congr fun k _ => ?_
              simp [beq_eq_decide, Bool.and_comm]
            have first : (key :: ts.filterMap Subject.key?).removeAll n.seen
                = key :: (ts.filterMap Subject.key?).removeAll n.seen := by
              simp [List.removeAll, mem]
            rw [seen_note mem, others, first, List.eraseDups_cons, List.append_assoc]
            rfl

theorem seen_after_empty (ts : List Subject) :
    (({} : Numbering).after ts).seen = appearances ts := by
  rw [seen_after, List.nil_append, List.removeAll_nil]
  rfl

theorem nodup_after {n : Numbering} (h : n.seen.Nodup) (ts : List Subject) :
    (n.after ts).seen.Nodup := by
  induction ts generalizing n with
  | nil => exact h
  | cons t ts ih =>
      cases t with
      | block id => exact ih h
      | region key kind =>
          refine ih (n := n.note key) ?_
          by_cases mem : key ∈ n.seen
          · rwa [note, if_pos mem]
          · rw [seen_note mem]
            exact List.concat_eq_append ▸ h.concat mem

/-- A region keeps its number. -/
theorem number_after {n : Numbering} {key : Nat} (h : key ∈ n.seen) (ts : List Subject) :
    (n.after ts).number key = n.number key := by
  rw [number, seen_after, List.idxOf_append, if_pos h]
  rfl

/-- The names are those that the last numbering gives. -/
theorem named_eq (n : Numbering) (ts : List Subject) :
    n.named ts = ts.map fun t => (t, ((n.after ts).name t).1) := by
  induction ts generalizing n with
  | nil => rfl
  | cons t ts ih =>
      have first : ((n.after (t :: ts)).name t).1 = (n.name t).1 := by
        cases t with
        | block id => rfl
        | region key kind =>
            show clusterName kind (((n.note key).after ts).number key)
              = clusterName kind (n.number key)
            rw [number_after (n.mem_note key), number_note]
      rw [List.map_cons, first, named, ih]
      rfl

end Numbering

/-! ## Telling subjects apart -/

theorem blockName_ne_clusterName (id : Int) (kind : Text) (k : Nat) :
    blockName id ≠ clusterName kind k := by
  intro same
  cases same

theorem clusterName_ne_methodName (kind : Text) (k : Nat) : clusterName kind k ≠ methodName := by
  intro same
  cases same

/-- Of the subjects named so far, only the same have one name. -/
theorem Numbering.name_eq_iff {n : Numbering} {t u : Subject} (ht : ∀ key ∈ t.key?, key ∈ n.seen)
    (hu : ∀ key ∈ u.key?, key ∈ n.seen) (kind : t.Same u → t = u) :
    (n.name t).1 = (n.name u).1 ↔ t.Same u := by
  refine ⟨fun same => ?_, fun same => by rw [kind same]⟩
  cases t with
  | block id =>
      cases u with
      | block id' => exact blockName_injective same
      | region key' kind' => exact blockName_ne_clusterName _ _ _ same
  | region key kind =>
      cases u with
      | block id' => exact blockName_ne_clusterName _ _ _ same.symm
      | region key' kind' =>
          exact eq_of_idxOf_eq (ht key rfl) (hu key' rfl) (number_eq_of_clusterName_eq same)

/-- Behind its first word the name of a cluster has only characters of identifiers. -/
theorem clusterName_eq_append (kind : Text) (k : Nat) :
    ∃ w, clusterName kind k = lit "cluster_" ++ w ∧ ∀ c ∈ w, isIdentifierChar c = true := by
  obtain ⟨first, rest, name, -, chars⟩ := isIdentifier_clusterName kind k
  refine ⟨identifier kind ++ '_' :: Text.natural k, List.append_assoc .., fun c hc => chars c ?_⟩
  have whole : rest = lit "luster_" ++ (identifier kind ++ '_' :: Text.natural k) :=
    (List.cons.inj name).2.symm
  rw [whole]
  exact List.mem_append_right _ hc

/-- What the names given to some subjects one after another have to do. -/
structure Distinguishes (ts : List Subject) (named : List (Subject × Text)) : Prop where
  /-- Each time a subject is named it is given a name. -/
  subjects : named.map Prod.fst = ts
  /-- Two names are the same exactly if they are given to the same subject, to blocks of one
  number or to one region. -/
  same_iff : ∀ p ∈ named, ∀ q ∈ named, p.2 = q.2 ↔ p.1.Same q.1
  /-- A block is named by its number. -/
  block : ∀ id name, (.block id, name) ∈ named → name = blockName id
  /-- Each region appears first at one place. -/
  nodup : (appearances ts).Nodup
  /-- A region is named by its kind and by the number of regions that appear before it. -/
  region : ∀ key kind name, (.region key kind, name) ∈ named →
    ∃ k, (appearances ts)[k]? = some key ∧ name = clusterName kind k
  /-- The name of a region has only characters of identifiers. -/
  cluster : ∀ key kind name, (.region key kind, name) ∈ named →
    ∃ w, name = lit "cluster_" ++ w ∧ ∀ c ∈ w, isIdentifierChar c = true
  /-- No name is that of the node of the method. -/
  method : ∀ p ∈ named, p.2 ≠ methodName

/-- The names that a numbering gives to subjects, one after another, tell them apart. -/
theorem named_distinguishes {ts : List Subject} (kinds : OneKind ts) :
    Distinguishes ts (({} : Numbering).named ts) := by
  have seen := Numbering.seen_after_empty ts
  have nodup := Numbering.nodup_after (n := {}) List.nodup_nil ts
  rw [Numbering.named_eq]
  generalize ({} : Numbering).after ts = last at seen nodup
  have appears : ∀ t ∈ ts, ∀ key ∈ t.key?, key ∈ last.seen := fun t ht key hk =>
    seen ▸ List.mem_eraseDups.2 (List.mem_filterMap.2 ⟨t, ht, hk⟩)
  have given : ∀ {t name}, (t, name) ∈ ts.map (fun t => (t, (last.name t).1)) →
      t ∈ ts ∧ name = (last.name t).1 := by
    intro t name h
    obtain ⟨u, hu, same⟩ := List.mem_map.1 h
    cases same
    exact ⟨hu, rfl⟩
  refine ⟨by simp [Function.comp_def], ?_, fun id name h => (given h).2, seen ▸ nodup, ?_, ?_, ?_⟩
  · rintro ⟨t, name⟩ hp ⟨u, name'⟩ hq
    obtain ⟨ht, rfl⟩ := given hp
    obtain ⟨hu, rfl⟩ := given hq
    exact Numbering.name_eq_iff (appears t ht) (appears u hu) (kinds t ht u hu)
  · intro key kind name h
    obtain ⟨mem, rfl⟩ := given h
    have lt := List.idxOf_lt_length_iff.2 (appears _ mem key rfl)
    exact ⟨_, seen ▸ List.getElem?_eq_some_iff.2 ⟨lt, List.getElem_idxOf lt⟩, rfl⟩
  · intro key kind name h
    rw [(given h).2]
    exact clusterName_eq_append _ _
  · rintro ⟨t, name⟩ hp
    obtain ⟨-, rfl⟩ := given hp
    cases t with
    | block id => exact blockName_ne_methodName id
    | region key kind => exact clusterName_ne_methodName _ _

/-- Regions named more than once between blocks, with kinds that end in a number or differ only
in characters that no name has. -/
def blurredSubjects : List Subject :=
  [.region 5 (lit "A_1"), .block 7, .region 3 (lit "A"), .region 5 (lit "A_1"), .block 7,
   .region 9 (lit "A-1"), .region 4 (lit "A_1"), .block 0]

theorem blurredSubjects_distinguished :
    OneKind blurredSubjects ∧
      Distinguishes blurredSubjects (({} : Numbering).named blurredSubjects) ∧
      (({} : Numbering).named blurredSubjects).map Prod.snd =
        [lit "cluster_A_1_0", lit "Node_7", lit "cluster_A_1", lit "cluster_A_1_0", lit "Node_7",
         lit "cluster_A_1_2", lit "cluster_A_1_3", lit "Node_0"] := by
  have kinds : OneKind blurredSubjects := by decide +kernel
  exact ⟨kinds, named_distinguishes kinds, by decide +kernel⟩

end FlowGraph.Dot
