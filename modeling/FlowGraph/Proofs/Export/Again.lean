import FlowGraph.Proofs.Export.Contents

/-!
# Exporting again

An export that meets no obstacle leaves a file system in which the same export goes the same way
(`turns_again`).  What was in the way of a directory or of a graph is still there, since a file
system only grows, and what was written can be written again, since it is a file already.  So
the second export writes what the first one has written, and changes no file
(`contentAt_again`).

Paths are taken to start in a directory that has only directories above it (`Standing`), as the
working directory of a program does.
-/

namespace FlowGraph

open FileSystem (resolve up Grows Changes Writable)

variable {t : Target} {m : Method} {methods : List Method} {fs fs' : FileSystem}
  {touched touched' : Location → Prop}

/-! ## The working directory -/

namespace FileSystem

/-- Whether the working directory is there, and everything above it is a directory.  A program
that runs in a tree of directories always finds this so. -/
def Standing (fs : FileSystem) : Prop := ∀ l, l <+: fs.working → fs.get? l = some .directory

theorem Standing.of_grows (h : fs.Standing) (grows : Grows touched fs fs') : fs'.Standing := by
  intro l hl
  rw [grows.working_eq] at hl
  exact grows.directory l (h l hl)

/-- Every path starts in a directory. -/
theorem Standing.start (h : fs.Standing) (p : Path) : fs.get? (fs.start p) = some .directory := by
  rw [FileSystem.start]
  split
  · exact h _ (List.prefix_refl _)
  · rfl

theorem Standing.anchored (h : fs.Standing) (p : Path) : fs.Anchored (fs.start p) :=
  anchored_start (fun l hl _ => h l hl) p

end FileSystem

/-! ## What an export touches -/

/-- The locations of the graphs of some methods that are drawn. -/
def Target.GraphAt (t : Target) (methods : List Method) (fs : FileSystem) (l : Location) : Prop :=
  ∃ m ∈ methods, Dot.skip? t.view m = none ∧
    ∃ out, t.output = some out ∧ fs.locate (t.path out m) = .ok l

theorem Target.GraphAt.of_subset {methods' : List Method} {l : Location}
    (h : t.GraphAt methods fs l) (sub : methods ⊆ methods') : t.GraphAt methods' fs l := by
  obtain ⟨m, mem, drawn, place⟩ := h
  exact ⟨m, sub mem, drawn, place⟩

theorem Target.GraphAt.of_grows {l : Location} (h : t.GraphAt methods fs l)
    (grows : Grows touched fs fs') : t.GraphAt methods fs' l := by
  obtain ⟨m, mem, drawn, out, target, found⟩ := h
  exact ⟨m, mem, drawn, out, target, grows.locate found⟩

/-- A method touches no file but that of its graph. -/
theorem turn_grows (t : Target) (m : Method) (fs : FileSystem) :
    Grows (t.GraphAt [m] (t.turn FileSystem.disk m fs).after) fs
      (t.turn FileSystem.disk m fs).after := by
  rcases turn_cases t m fs with ⟨out, target, drawn, -, l, found, -, grows⟩ | ⟨-, grows⟩
  · refine grows.mono ?_
    rintro k rfl
    exact ⟨m, List.mem_cons_self, drawn, out, target, found⟩
  · exact grows.mono fun _ => False.elim

/-- An export touches no file but those of its graphs. -/
theorem turns_grows (t : Target) (methods : List Method) (fs : FileSystem) :
    Grows (t.GraphAt methods (stateAfter fs (t.turns FileSystem.disk methods fs))) fs
      (stateAfter fs (t.turns FileSystem.disk methods fs)) := by
  induction methods generalizing fs with
  | nil => exact .refl fs
  | cons m rest ih =>
      rw [Target.turns, stateAfter]
      have first := turn_grows t m fs
      have head : [m] ⊆ m :: rest := List.cons_subset_cons m (List.nil_subset rest)
      split
      · exact first.mono fun l there => there.of_subset head
      · have later := ih (t.turn FileSystem.disk m fs).after
        exact (first.mono fun l there => (there.of_subset head).of_grows later).trans_same
          (later.mono fun l there => there.of_subset (List.subset_cons_self m rest))

/-- The path of a graph that was written leads to its file after the export. -/
theorem locate_of_written {turn : Turn FileSystem} {path : Path}
    (mem : turn ∈ t.turns FileSystem.disk methods fs) (written : turn.outcome = .written path) :
    (stateAfter fs (t.turns FileSystem.disk methods fs)).locate path =
      .ok (resolve (turn.before.start path) path.parts) := by
  induction methods generalizing fs with
  | nil => cases mem
  | cons m rest ih =>
      rw [Target.turns] at mem ⊢
      rw [stateAfter]
      rcases List.mem_cons.1 mem with rfl | mem
      · rcases turn_cases t m fs with ⟨out, target, -, outcome, places⟩ | ⟨other, -⟩
        · cases outcome.symm.trans written
          have found := places.at_resolve.1
          split
          · exact found
          · exact (turns_grows t rest _).locate found
        · exact absurd written (other path)
      · split at mem
        · cases mem
        · next going =>
            rw [if_neg going]
            exact ih mem

/-! ## One method again -/

/-- Where the directory cannot be made, writing a file fails. -/
theorem Writes.failed_of_not_reachable {path : Path} {content : List UInt8} {outcome : Outcome}
    (h : Writes path content fs fs' outcome) (plain : path.parent.hasNull = false)
    (anchored : up ∈ path.parent.parts → fs.Anchored (fs.start path))
    (closed : ¬ fs.Reachable path.parent) : ∃ e, outcome = .failed e := by
  cases h with
  | nullAbove null =>
      rw [plain] at null
      cases null
  | noDirectory plain parent => exact ⟨_, rfl⟩
  | null plain parent null => exact absurd ((parent.ok_iff anchored).1 rfl) closed
  | refused plain parent failed => exact absurd ((parent.ok_iff anchored).1 rfl) closed
  | written plain parent done => exact absurd ((parent.ok_iff anchored).1 rfl) closed

/-- Writing a file again, when the file system has grown, goes as it has gone before. -/
theorem Writes.alike_again {path : Path} {content : List UInt8} {fs₁ fs₁' : FileSystem}
    {outcome outcome' : Outcome} (h : Writes path content fs fs₁ outcome)
    (h' : Writes path content fs' fs₁' outcome') (home : fs.Standing)
    (grows : Grows touched fs fs') (kept : Grows touched' fs₁ fs')
    (free : outcome.obstacle? = none) : outcome'.Alike outcome := by
  have anchored : up ∈ path.parent.parts → fs.Anchored (fs.start path) := fun _ =>
    home.anchored path
  have anchored' : up ∈ path.parent.parts → fs'.Anchored (fs'.start path) := fun _ =>
    (home.of_grows grows).anchored path
  have writable : path.hasNull = false →
      (outcome' = .written path ↔ outcome = .written path) := by
    intro plain
    rw [h'.written_iff plain anchored']
    refine ⟨fun room => ?_, fun written => ?_⟩
    · exact (h.written_iff plain anchored).2 (room.of_grows grows (home.start path))
    · have room : fs.Writable path := (h.written_iff plain anchored).1 written
      rw [written] at h
      obtain ⟨l, found, holds, -⟩ := h.places
      obtain ⟨c, file⟩ := kept.isFile l _ holds
      exact room.of_hasFile grows (kept.locate found) ⟨c, file⟩
  have alike : path.hasNull = false → outcome'.Alike outcome := fun plain =>
    h'.alike h plain (writable plain)
  -- only the name of the file can have a null character, if the directory could not be made
  cases h with
  | nullAbove null => cases free
  | noDirectory plain parent =>
      have closed : ¬ fs.Reachable path.parent := mt (parent.ok_iff anchored).2 nofun
      obtain ⟨e', failed⟩ := h'.failed_of_not_reachable plain anchored' fun room =>
        closed (room.of_grows grows (home.start _))
      rw [failed]
      exact .failed e' _
  | null plain parent null => cases free
  | refused plain parent failed => exact alike plain
  | written plain parent done => exact alike plain

/-- A method fares in a later turn as it has before, if it has met no obstacle. -/
theorem turn_alike (home : fs.Standing) (grows : Grows touched fs fs')
    (kept : Grows touched' (t.turn FileSystem.disk m fs).after fs')
    (free : (t.turn FileSystem.disk m fs).outcome.obstacle? = none) :
    (t.turn FileSystem.disk m fs').outcome.Alike (t.turn FileSystem.disk m fs).outcome := by
  cases skip : Dot.skip? t.view m with
  | some why =>
      rw [turn_of_skip skip, turn_of_skip skip]
      exact .same _
  | none =>
      cases target : t.output with
      | none =>
          have blocked : (t.turn FileSystem.disk m fs).outcome = .blocked .noOutput := by
            rw [Target.turn, Target.export, skip, target]
            rfl
          rw [blocked] at free
          cases free
      | some out =>
          have writes := writes_turn fs skip target
          have writes' := writes_turn fs' skip target
          exact writes.alike_again writes' home grows kept free

/-! ## The whole export again -/

/-- Whether two turns of a method have gone the same way from the same working directory. -/
structure Turn.Alike (turn turn' : Turn FileSystem) : Prop where
  method : turn.method = turn'.method
  outcome : turn.outcome.Alike turn'.outcome
  start : ∀ p, turn.before.start p = turn'.before.start p

/-- After an export that has met no obstacle, the same export has turns that are alike. -/
theorem turns_alike (home : fs.Standing) (grows : Grows touched fs fs')
    (kept : Grows touched' (stateAfter fs (t.turns FileSystem.disk methods fs)) fs')
    (free : ∀ turn ∈ t.turns FileSystem.disk methods fs, turn.outcome.obstacle? = none) :
    List.Forall₂ Turn.Alike (t.turns FileSystem.disk methods fs')
      (t.turns FileSystem.disk methods fs) := by
  -- both exports run side by side: each state of the second has grown out of the one in the same
  -- turn of the first, and out of the last state of the first
  induction methods generalizing fs fs' touched touched' with
  | nil => exact .nil
  | cons m rest ih =>
      rw [Target.turns] at kept free
      have first := free _ List.mem_cons_self
      rw [stateAfter] at kept
      simp only [first, Option.isSome_none, Bool.false_eq_true, if_false] at kept free
      have done := turn_grows t m fs
      have more := turn_grows t m fs'
      have later := (turns_grows t rest (t.turn FileSystem.disk m fs).after).trans kept
      have alike := turn_alike home grows later first
      have first' := (alike.congr fun _ _ => rfl).trans first
      rw [Target.turns, Target.turns]
      simp only [first, first', Option.isSome_none, Bool.false_eq_true, if_false]
      exact .cons ⟨rfl, alike, grows.start_eq⟩ (ih (home.of_grows done) (later.trans more)
        (kept.trans more) fun turn mem => free turn (List.mem_cons_of_mem _ mem))

/-- An export that has met no obstacle goes the same way right after. -/
theorem turns_again (home : fs.Standing)
    (free : ∀ turn ∈ t.turns FileSystem.disk methods fs, turn.outcome.obstacle? = none) :
    List.Forall₂ Turn.Alike
      (t.turns FileSystem.disk methods (stateAfter fs (t.turns FileSystem.disk methods fs)))
      (t.turns FileSystem.disk methods fs) := by
  have kept : Grows (fun _ => False) (stateAfter fs (t.turns FileSystem.disk methods fs)) _ :=
    .refl _
  exact turns_alike home (turns_grows t methods fs) kept free

/-- What is told by the outcomes of turns, and not by errors, is the same for turns that are
alike. -/
theorem map_outcome_eq_of_alike {β : Type} {f : Outcome → β} {turns turns' : List (Turn FileSystem)}
    (h : List.Forall₂ Turn.Alike turns turns')
    (failed : ∀ e e', f (.failed e) = f (.failed e')) :
    (turns.map Turn.outcome).map f = (turns'.map Turn.outcome).map f := by
  induction h with
  | nil => rfl
  | cons alike later ih =>
      rw [List.map_cons, List.map_cons, List.map_cons, List.map_cons, ih,
        alike.outcome.congr failed]

theorem writes_eq_of_alike {turns turns' : List (Turn FileSystem)}
    (h : List.Forall₂ Turn.Alike turns turns') : t.writes turns = t.writes turns' := by
  induction h with
  | nil => rfl
  | cons alike later ih =>
      rw [Target.writes_cons, Target.writes_cons, ih,
        Target.writeOf_congr alike.method alike.outcome alike.start]

/-- The second of two exports changes no file. -/
theorem contentAt_again {fs₁ : FileSystem} (home : fs.Standing)
    (free : ∀ turn ∈ t.turns FileSystem.disk methods fs, turn.outcome.obstacle? = none)
    (first : fs₁ = stateAfter fs (t.turns FileSystem.disk methods fs)) (l : Location) :
    (stateAfter fs₁ (t.turns FileSystem.disk methods fs₁)).contentAt l = fs₁.contentAt l := by
  have alike := turns_again home free
  rw [← first] at alike
  have once : fs₁.contentAt l =
      (lastAt l (t.writes (t.turns FileSystem.disk methods fs))).or (fs.contentAt l) := by
    rw [first, Target.contentAt_stateAfter]
  rw [Target.contentAt_stateAfter, writes_eq_of_alike alike, once, ← Option.or_assoc,
    Option.or_self]

/-- A file to which no graph has been written can be read as before. -/
theorem read_stateAfter {p : Path} {bytes : List UInt8} (taken : fs.read p = .ok bytes)
    (spared : ∀ turn ∈ t.turns FileSystem.disk methods fs, ∀ path, turn.outcome = .written path →
      (stateAfter fs (t.turns FileSystem.disk methods fs)).locate path ≠
        (stateAfter fs (t.turns FileSystem.disk methods fs)).locate p) :
    (stateAfter fs (t.turns FileSystem.disk methods fs)).read p = .ok bytes := by
  obtain ⟨l, found, holds⟩ := FileSystem.exists_of_read taken
  have found' := (turns_grows t methods fs).locate found
  have untouched : lastAt l (t.writes (t.turns FileSystem.disk methods fs)) = none := by
    refine lastAt_eq_none fun write mem here => ?_
    obtain ⟨turn, taken, wrote⟩ := List.mem_filterMap.1 mem
    rw [Target.writeOf] at wrote
    split at wrote
    · next path written =>
        cases wrote
        refine spared turn taken path written ?_
        rw [locate_of_written taken written, found']
        exact congrArg Except.ok here
    · cases wrote
  refine FileSystem.read_of_locate found' (FileSystem.contentAt_eq_some.1 ?_)
  rw [Target.contentAt_stateAfter, untouched, Option.none_or]
  exact FileSystem.contentAt_eq_some.2 holds

end FlowGraph
