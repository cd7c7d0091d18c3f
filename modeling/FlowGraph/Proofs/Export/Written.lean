import FlowGraph.Proofs.Export.Turns

/-!
# What an export writes

An export on a disk that is a value, as a relation between the file systems before and after.
A graph that is written touches the one location its path leads to (`Writes.places`).  `Exports`
strings such steps together: it is what an export amounts to in which nothing fails
(`exportAll_exports`).

A graph is still in its file after the whole export if the path of no later graph leads there
(`Exports.holds`).
-/

namespace FlowGraph

open FileSystem (Grows Places)

variable {fs fs' : FileSystem}

/-! ## Exporting a method -/

/-- Whether nothing went wrong with a method. -/
def Outcome.IsFine (outcome : Outcome) : Prop :=
  outcome.obstacle? = none ∧ ∀ e, outcome ≠ .failed e

/-- A method with which nothing went wrong was left out, or its graph has been put at its
path. -/
theorem export_places {t : Target} {m : Method} {outcome : Outcome}
    (ran : t.export FileSystem.disk m fs = (outcome, fs')) (fine : outcome.IsFine) :
    (Dot.skip? t.view m ≠ none ∧ fs' = fs) ∨ (Dot.skip? t.view m = none ∧
      ∃ out, t.output = some out ∧ Places (t.path out m) (t.content m) fs fs') := by
  rcases export_cases ran with
    ⟨why, skip, -, same⟩ | ⟨drawn, ⟨-, blocked, -⟩ | ⟨out, target, wrote⟩⟩
  · exact .inl ⟨by simp [skip], same⟩
  · rw [blocked] at fine
    cases fine.1
  · rcases writeBelow_cases wrote with ⟨-, blocked⟩ | ⟨-, ⟨e, failed⟩ | ⟨written, -⟩⟩
    · rw [blocked] at fine
      cases fine.1
    · exact absurd failed (fine.2 e)
    · have writes := writes_of_writeBelow wrote
      rw [written] at writes
      exact .inr ⟨drawn, out, target, writes.places⟩

/-! ## Exporting methods -/

/-- How an export in which nothing goes wrong changes a file system: each method is left out,
or its graph is put at its path. -/
inductive Exports (t : Target) : List Method → FileSystem → FileSystem → Prop where
  | nil {fs : FileSystem} : Exports t [] fs fs
  | skipped {m : Method} {rest : List Method} {fs fs' : FileSystem}
      (skip : Dot.skip? t.view m ≠ none) (later : Exports t rest fs fs') :
      Exports t (m :: rest) fs fs'
  | written {m : Method} {rest : List Method} {fs fs₁ fs' : FileSystem} {out : Path}
      (drawn : Dot.skip? t.view m = none) (target : t.output = some out)
      (places : Places (t.path out m) (t.content m) fs fs₁) (later : Exports t rest fs₁ fs') :
      Exports t (m :: rest) fs fs'

theorem exportAll_exports {t : Target} {methods : List Method} {outcomes : List (Method × Outcome)}
    (ran : t.exportAll FileSystem.disk methods fs = (outcomes, fs'))
    (fine : ∀ p ∈ outcomes, p.2.IsFine) : Exports t methods fs fs' := by
  induction methods generalizing fs outcomes with
  | nil =>
      cases ran
      exact .nil
  | cons m rest ih =>
      rw [Target.exportAll] at ran
      obtain ⟨outcome, fs₁, exported, ran⟩ := exists_of_bind ran
      split at ran
      · next blocked =>
          cases ran
          have none := (fine _ List.mem_cons_self).1
          simp [none] at blocked
      · obtain ⟨later, fs₂, others, ran⟩ := exists_of_bind ran
        cases ran
        have after := ih others fun p hp => fine p (List.mem_cons_of_mem _ hp)
        rcases export_places exported (fine _ List.mem_cons_self) with
          ⟨skip, rfl⟩ | ⟨drawn, out, target, places⟩
        · exact .skipped skip after
        · exact .written drawn target places after

namespace Exports

variable {t : Target} {out : Path} {m : Method} {methods before after : List Method}

/-- An export of some methods touches no file but those of their graphs. -/
theorem grows (exports : Exports t methods fs fs') (target : t.output = some out) :
    Grows (fun l => ∃ m ∈ methods, Dot.skip? t.view m = none ∧ fs'.locate (t.path out m) = .ok l)
      fs fs' := by
  induction exports with
  | nil => exact .refl _
  | skipped skip later ih =>
      exact ih.mono fun l ⟨m', hm', found⟩ => ⟨m', List.mem_cons_of_mem _ hm', found⟩
  | written drawn target' places later ih =>
      cases target.symm.trans target'
      obtain ⟨l, found, -, grows⟩ := places
      refine (grows.mono ?_).trans_same
        (ih.mono fun l ⟨m', hm', found⟩ => ⟨m', List.mem_cons_of_mem _ hm', found⟩)
      rintro l rfl
      exact ⟨_, List.mem_cons_self, drawn, ih.locate found⟩

/-- Methods are exported one after the other. -/
theorem split (exports : Exports t (before ++ after) fs fs') :
    ∃ fs₁, Exports t before fs fs₁ ∧ Exports t after fs₁ fs' := by
  induction before generalizing fs with
  | nil => exact ⟨fs, .nil, exports⟩
  | cons m before ih =>
      cases exports with
      | skipped skip later =>
          obtain ⟨fs₁, first, second⟩ := ih later
          exact ⟨fs₁, .skipped skip first, second⟩
      | written drawn target places later =>
          obtain ⟨fs₁, first, second⟩ := ih later
          exact ⟨fs₁, .written drawn target places first, second⟩

/-- Without an output directory no graph is drawn. -/
theorem skipped_of_noOutput (exports : Exports t methods fs fs') (none : t.output = none) :
    ∀ m ∈ methods, Dot.skip? t.view m ≠ Option.none := by
  induction exports with
  | nil => simp
  | skipped skip later ih =>
      intro m hm
      rcases List.mem_cons.1 hm with rfl | hm
      · exact skip
      · exact ih m hm
  | written drawn target places later ih =>
      rw [none] at target
      cases target

/-- The path of a graph leads somewhere after the export, and the graph is there unless the
path of a later one leads there too. -/
theorem holds (exports : Exports t (before ++ m :: after) fs fs') (target : t.output = some out)
    (drawn : Dot.skip? t.view m = none) :
    ∃ l, fs'.locate (t.path out m) = .ok l ∧
      ((∀ m' ∈ after, Dot.skip? t.view m' = none → fs'.locate (t.path out m') ≠ .ok l) →
        fs'.get? l = some (.file (t.content m))) := by
  obtain ⟨fs₁, -, exports⟩ := exports.split
  cases exports with
  | skipped skip later => exact absurd drawn skip
  | written _ target' places later =>
      cases target.symm.trans target'
      obtain ⟨l, found, holds, -⟩ := places
      have grows := later.grows target
      refine ⟨l, grows.locate found, fun last => (grows.file_iff l _ ?_).2 holds⟩
      rintro ⟨m', hm', drawn', found'⟩
      exact last m' hm' drawn' found'

theorem exists_location (exports : Exports t methods fs fs') (target : t.output = some out)
    (mem : m ∈ methods) (drawn : Dot.skip? t.view m = none) :
    ∃ l, fs'.locate (t.path out m) = .ok l := by
  obtain ⟨before, after, rfl⟩ := List.append_of_mem mem
  obtain ⟨l, found, -⟩ := exports.holds target drawn
  exact ⟨l, found⟩

end Exports

end FlowGraph
