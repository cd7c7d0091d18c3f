import FlowGraph.Proofs.Export.Turns

/-!
# The files after an export

What the turns of an export write is a list of locations with contents (`Target.writes`), and a
file holds after the export what was written to it last, or what it held before
(`contentAt_stateAfter`).  The directories that are made on the way do not matter.

For different locations the order of the writes does not matter (`lastAt_of_perm`).
-/

namespace FlowGraph

open FileSystem (resolve Grows Changes)

/-! ## The content at a location -/

namespace FileSystem

/-- The content of the file at a location, if there is one. -/
def contentAt (fs : FileSystem) (l : Location) : Option (List UInt8) :=
  match fs.get? l with
  | some (.file content) => some content
  | _ => none

theorem contentAt_eq_some {fs : FileSystem} {l : Location} {c : List UInt8} :
    fs.contentAt l = some c ↔ fs.get? l = some (.file c) := by
  rw [contentAt]
  split
  · next content here => simp [here]
  · next other =>
      refine ⟨nofun, fun here => ?_⟩
      exact absurd here (other c)

/-- A location that is not touched has the content it had. -/
theorem Grows.contentAt_eq {touched : Location → Prop} {fs fs' : FileSystem} {l : Location}
    (h : Grows touched fs fs') (untouched : ¬ touched l) : fs'.contentAt l = fs.contentAt l := by
  refine Option.ext fun c => ?_
  rw [contentAt_eq_some, contentAt_eq_some]
  exact h.file_iff l c untouched

end FileSystem

/-! ## Last writes -/

/-- The content written last to a location, if there is one. -/
def lastAt (l : Location) : List (Location × List UInt8) → Option (List UInt8)
  | [] => none
  | (k, content) :: rest => (lastAt l rest).or (if k = l then some content else none)

theorem lastAt_eq_none {l : Location} {writes : List (Location × List UInt8)}
    (h : ∀ write ∈ writes, write.1 ≠ l) : lastAt l writes = none := by
  induction writes with
  | nil => rfl
  | cons write rest ih =>
      obtain ⟨k, content⟩ := write
      have other : k ≠ l := h _ List.mem_cons_self
      rw [lastAt, ih fun write mem => h write (List.mem_cons_of_mem _ mem), if_neg other]
      rfl

theorem lastAt_append {l : Location} (before after : List (Location × List UInt8)) :
    lastAt l (before ++ after) = (lastAt l after).or (lastAt l before) := by
  induction before with
  | nil => rw [List.nil_append, lastAt, Option.or_none]
  | cons write rest ih => rw [List.cons_append, lastAt, lastAt, ih, Option.or_assoc]

/-- Where the locations are different, what is written is written last. -/
theorem lastAt_eq_some_iff {l : Location} {content : List UInt8}
    {writes : List (Location × List UInt8)} (distinct : (writes.map Prod.fst).Nodup) :
    lastAt l writes = some content ↔ (l, content) ∈ writes := by
  induction writes with
  | nil => simp [lastAt]
  | cons write rest ih =>
      obtain ⟨k, c⟩ := write
      obtain ⟨new, distinct⟩ := List.nodup_cons.1 distinct
      rw [lastAt, List.mem_cons]
      by_cases same : k = l
      · have none : lastAt l rest = none := lastAt_eq_none fun write mem here =>
          new (List.mem_map.2 ⟨write, mem, here.trans same.symm⟩)
        have fresh : (l, content) ∉ rest := fun mem =>
          new (List.mem_map.2 ⟨_, mem, same.symm⟩)
        simp [none, same, fresh, eq_comm]
      · simp [same, ih distinct, Ne.symm same]

/-- Writes to different locations may be made in any order. -/
theorem lastAt_of_perm {l : Location} {writes writes' : List (Location × List UInt8)}
    (perm : writes.Perm writes') (distinct : (writes.map Prod.fst).Nodup) :
    lastAt l writes = lastAt l writes' := by
  refine Option.ext fun content => ?_
  rw [lastAt_eq_some_iff distinct,
    lastAt_eq_some_iff ((perm.map Prod.fst).nodup_iff.1 distinct), perm.mem_iff]

/-! ## The writes of an export -/

namespace Target

variable {t : Target} {fs : FileSystem}

/-- What is written in a turn, and where. -/
def writeOf (t : Target) (turn : Turn FileSystem) : Option (Location × List UInt8) :=
  match turn.outcome with
  | .written path => some (resolve (turn.before.start path) path.parts, t.content turn.method)
  | _ => none

/-- What is written in some turns. -/
def writes (t : Target) (turns : List (Turn FileSystem)) : List (Location × List UInt8) :=
  turns.filterMap t.writeOf

/-- Turns of one method that are alike write the same. -/
theorem writeOf_congr {turn turn' : Turn FileSystem} (method : turn.method = turn'.method)
    (alike : turn.outcome.Alike turn'.outcome)
    (start : ∀ p, turn.before.start p = turn'.before.start p) :
    t.writeOf turn = t.writeOf turn' := by
  obtain ⟨m, outcome, before, after⟩ := turn
  obtain ⟨m', outcome', before', after'⟩ := turn'
  cases method
  cases alike with
  | same =>
      cases outcome with
      | written path =>
          have here : before.start path = before'.start path := start path
          simp only [writeOf, here]
      | skipped why => rfl
      | failed e => rfl
      | blocked why => rfl
  | failed e e' => rfl

/-- A graph is written at the location of its path. -/
theorem fst_of_writeOf {out : Path} {m : Method} {write : Location × List UInt8}
    (target : t.output = some out)
    (wrote : t.writeOf (t.turn FileSystem.disk m fs) = some write) :
    write.1 = resolve (fs.start (t.path out m)) (t.path out m).parts := by
  rw [writeOf] at wrote
  rcases turn_cases t m fs with ⟨out', target', -, outcome, -⟩ | ⟨other, -⟩
  · cases target.symm.trans target'
    rw [outcome] at wrote
    cases wrote
    rfl
  · split at wrote
    · next path outcome => exact absurd outcome (other path)
    · cases wrote

theorem writes_cons (t : Target) (turn : Turn FileSystem) (rest : List (Turn FileSystem)) :
    t.writes (turn :: rest) = (t.writeOf turn).toList ++ t.writes rest := by
  rw [writes, List.filterMap_cons]
  cases t.writeOf turn <;> rfl

/-- After its turn a method has changed no file but the one it has written. -/
theorem contentAt_turn (t : Target) (m : Method) (fs : FileSystem) (l : Location) :
    (t.turn FileSystem.disk m fs).after.contentAt l =
      (lastAt l (t.writeOf (t.turn FileSystem.disk m fs)).toList).or (fs.contentAt l) := by
  rw [writeOf]
  rcases turn_cases t m fs with ⟨out, target, -, outcome, places⟩ | ⟨other, grows⟩
  · obtain ⟨-, holds, grows⟩ := places.at_resolve
    rw [outcome, Option.toList_some, lastAt, lastAt, Option.none_or]
    split
    · next here =>
        rw [← here]
        exact FileSystem.contentAt_eq_some.2 holds
    · next there => exact grows.contentAt_eq fun same => there same.symm
  · split
    · next path outcome => exact absurd outcome (other path)
    · exact grows.contentAt_eq id

theorem contentAt_stateAfter (t : Target) (methods : List Method) (fs : FileSystem)
    (l : Location) : (stateAfter fs (t.turns FileSystem.disk methods fs)).contentAt l =
      (lastAt l (t.writes (t.turns FileSystem.disk methods fs))).or (fs.contentAt l) := by
  induction methods generalizing fs with
  | nil => rfl
  | cons m rest ih =>
      rw [turns, stateAfter, writes_cons, lastAt_append, Option.or_assoc, ← contentAt_turn]
      split
      · rfl
      · exact ih _

end Target

end FlowGraph
