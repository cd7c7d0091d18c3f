import FlowGraph.Proofs.CommandLine.Course
import FlowGraph.Proofs.Export.Contents
import FlowGraph.Proofs.Export.Places

/-!
# The order of an export

Methods are kept apart if their graphs have different paths below an output directory
(`KeptApart`).  What becomes of each of them could then be told before all exports
(`KeptApart.alike`), and so could everything that is gathered from their turns
(`KeptApart.filterMap_turns`): which methods are exported, which fail, and what is written.  So
these are the same in any order (`exportAll_perm`).

If the output directory has a null character, a method that is drawn ends the export before
anything is written (`KeptApart.outcome_of_null`).
-/

namespace FlowGraph

open FileSystem (resolve up Changes)
open CommandLine (exportEnd exportEnd_cases exportEnd_congr results_map_snd)

variable {fs fs' : FileSystem} {t : Target} {out : Path} {m : Method}
  {methods methods' : List Method}

/-! ## What is gathered from an export -/

/-- The methods with some outcomes. -/
def methodsWith (p : Outcome → Bool) (outcomes : List (Method × Outcome)) : List Method :=
  outcomes.filterMap fun q => if p q.2 then some q.1 else none

theorem exists_failed_iff {turns : List (Turn FileSystem)} :
    (∃ e, .failed e ∈ turns.map Turn.outcome) ↔
      methodsWith Outcome.isFailed (results turns) ≠ [] := by
  rw [methodsWith, results, List.filterMap_map, Ne, List.filterMap_eq_nil_iff]
  constructor
  · rintro ⟨e, mem⟩ none
    obtain ⟨turn, taken, failed⟩ := List.mem_map.1 mem
    have h := none turn taken
    simp [failed, Outcome.isFailed] at h
  · intro some
    by_contra fine
    refine some fun turn taken => ?_
    cases outcome : turn.outcome with
    | failed e => exact absurd ⟨e, List.mem_map.2 ⟨turn, taken, outcome⟩⟩ fine
    | skipped _ => simp [outcome, Outcome.isFailed]
    | written _ => simp [outcome, Outcome.isFailed]
    | blocked _ => simp [outcome, Outcome.isFailed]

/-! ## Methods that are kept apart -/

/-- Whether methods are kept apart by the places of their graphs. -/
structure KeptApart (t : Target) (out : Path) (methods : List Method) : Prop where
  /-- The graphs are written below an output directory. -/
  target : t.output = some out
  /-- No component of it leads up. -/
  down : up ∉ out.parts
  /-- No name of a class starts at the root. -/
  relative : ∀ m ∈ methods, ¬ m.ClassAtRoot
  /-- No name has a null character. -/
  free : ∀ m ∈ methods, m.NullFree
  /-- The paths of the graphs are different. -/
  distinct : (methods.map (t.path out)).Nodup

namespace KeptApart

theorem of_perm (h : KeptApart t out methods) (perm : methods.Perm methods') :
    KeptApart t out methods' where
  target := h.target
  down := h.down
  relative := fun m mem => h.relative m (perm.mem_iff.2 mem)
  free := fun m mem => h.free m (perm.mem_iff.2 mem)
  distinct := (perm.map _).nodup_iff.1 h.distinct

/-- In each turn a method fares as it would before all exports. -/
theorem alike (h : KeptApart t out methods) {turn : Turn FileSystem}
    (mem : turn ∈ t.turns FileSystem.disk methods fs) :
    turn.outcome.Alike (t.turn FileSystem.disk turn.method fs).outcome ∧
      ∀ p, turn.before.start p = fs.start p := by
  have before : Exported out fs turn.before :=
    Exported.before (Changes.refl fs) h.target h.down h.relative turn mem
  have own : turn.method ∈ methods := method_mem mem
  refine ⟨?_, before.grows.start_eq⟩
  have outcome : turn.outcome = (t.turn FileSystem.disk turn.method turn.before).outcome :=
    congrArg Turn.outcome (eq_turn_of_mem mem)
  rw [outcome]
  exact before.alike h.target h.down (h.relative _ own) (h.free _ own)

theorem obstacle?_eq_none (h : KeptApart t out methods) (plain : out.hasNull = false) :
    ∀ turn ∈ t.turns FileSystem.disk methods fs, turn.outcome.obstacle? = none :=
  fun _ mem => (obstacle?_of_mem_iff mem).2
    (not_stops h.target plain (h.free _ (method_mem mem)))

/-- With a null character in the output directory, a method that is drawn meets an obstacle. -/
theorem outcome_of_null (h : KeptApart t out methods) (null : out.hasNull = true)
    (mem : m ∈ methods) (fs : FileSystem) :
    (∃ why, Dot.skip? t.view m = some why ∧
      (t.turn FileSystem.disk m fs).outcome = .skipped why) ∨
    Dot.skip? t.view m = none ∧
      (t.turn FileSystem.disk m fs).outcome = .blocked .nullCharacter := by
  cases skip : Dot.skip? t.view m with
  | some why =>
      rw [turn_of_skip skip]
      exact .inl ⟨why, rfl, rfl⟩
  | none =>
      have above := Dot.hasNull_parent_outputPath t.view null (h.relative m mem)
      exact .inr ⟨rfl, (writes_turn fs skip h.target).eq_of_nullAbove above⟩

/-- What is gathered from the methods that are exported or fail can be gathered from the turns
they would have before all exports. -/
theorem filterMap_turns (h : KeptApart t out methods) {β : Type} (g : Turn FileSystem → Option β)
    (congr : ∀ turn ∈ t.turns FileSystem.disk methods fs,
      g turn = g (t.turn FileSystem.disk turn.method fs))
    (quiet : ∀ turn, (∀ path, turn.outcome ≠ .written path) → (∀ e, turn.outcome ≠ .failed e) →
      g turn = none) :
    (t.turns FileSystem.disk methods fs).filterMap g =
      methods.filterMap fun m => g (t.turn FileSystem.disk m fs) := by
  -- a null character ends the export early, but then there is nothing to gather
  by_cases null : out.hasNull = true
  · have nothing : ∀ m ∈ methods, g (t.turn FileSystem.disk m fs) = none := by
      intro m mem
      rcases h.outcome_of_null null mem fs with ⟨why, -, outcome⟩ | ⟨-, outcome⟩
      · exact quiet _ (by simp [outcome]) (by simp [outcome])
      · exact quiet _ (by simp [outcome]) (by simp [outcome])
    rw [List.filterMap_eq_nil_iff.2 nothing, List.filterMap_eq_nil_iff]
    intro turn mem
    rw [congr turn mem]
    exact nothing _ (method_mem mem)
  · have plain : out.hasNull = false := by simpa using null
    have all : (t.turns FileSystem.disk methods fs).map Turn.method = methods :=
      map_method_turns (h.obstacle?_eq_none plain)
    conv_rhs => rw [← all]
    rw [List.filterMap_map]
    exact List.filterMap_congr congr

/-- Which methods are exported, and which fail, could be told before all exports. -/
theorem methodsWith_eq (h : KeptApart t out methods) {p : Outcome → Bool}
    (failed : ∀ e e', p (.failed e) = p (.failed e'))
    (skipped : ∀ why, p (.skipped why) = false) (blocked : ∀ why, p (.blocked why) = false)
    (fs : FileSystem) : methodsWith p (results (t.turns FileSystem.disk methods fs)) =
      methods.filterMap fun m =>
        if p (t.turn FileSystem.disk m fs).outcome then some m else none := by
  rw [methodsWith, results, List.filterMap_map]
  refine h.filterMap_turns (fun turn => if p turn.outcome then some turn.method else none)
    (fun turn mem => ?_) fun turn noGraph fine => ?_
  · rw [(h.alike mem).1.congr failed]
    rfl
  · cases outcome : turn.outcome with
    | skipped why => simp [skipped]
    | written path => exact absurd outcome (noGraph path)
    | failed e => exact absurd outcome (fine e)
    | blocked why => simp [blocked]

theorem methodsWith_perm (h : KeptApart t out methods) (perm : methods.Perm methods')
    {p : Outcome → Bool} (failed : ∀ e e', p (.failed e) = p (.failed e'))
    (skipped : ∀ why, p (.skipped why) = false) (blocked : ∀ why, p (.blocked why) = false)
    (fs : FileSystem) : (methodsWith p (results (t.turns FileSystem.disk methods fs))).Perm
      (methodsWith p (results (t.turns FileSystem.disk methods' fs))) := by
  rw [h.methodsWith_eq failed skipped blocked,
    (h.of_perm perm).methodsWith_eq failed skipped blocked]
  exact perm.filterMap _

theorem writtenMethods_perm (h : KeptApart t out methods) (perm : methods.Perm methods')
    (fs : FileSystem) :
    (methodsWith Outcome.isWritten (results (t.turns FileSystem.disk methods fs))).Perm
      (methodsWith Outcome.isWritten (results (t.turns FileSystem.disk methods' fs))) :=
  h.methodsWith_perm perm (fun _ _ => rfl) (fun _ => rfl) (fun _ => rfl) fs

theorem failedMethods_perm (h : KeptApart t out methods) (perm : methods.Perm methods')
    (fs : FileSystem) :
    (methodsWith Outcome.isFailed (results (t.turns FileSystem.disk methods fs))).Perm
      (methodsWith Outcome.isFailed (results (t.turns FileSystem.disk methods' fs))) :=
  h.methodsWith_perm perm (fun _ _ => rfl) (fun _ => rfl) (fun _ => rfl) fs

/-- What is written could be told before all exports. -/
theorem writes_eq (h : KeptApart t out methods) (fs : FileSystem) :
    t.writes (t.turns FileSystem.disk methods fs) =
      methods.filterMap fun m => t.writeOf (t.turn FileSystem.disk m fs) := by
  refine h.filterMap_turns t.writeOf (fun turn mem => ?_) fun turn written failed => ?_
  · obtain ⟨alike, start⟩ := h.alike mem
    exact Target.writeOf_congr rfl alike start
  · rw [Target.writeOf]
    cases outcome : turn.outcome with
    | written path => exact absurd outcome (written path)
    | skipped why => rfl
    | failed e => rfl
    | blocked why => rfl

/-- The files that are written are different ones. -/
theorem writes_distinct (h : KeptApart t out methods) (fs : FileSystem) :
    ((t.writes (t.turns FileSystem.disk methods fs)).map Prod.fst).Nodup := by
  rw [h.writes_eq fs, List.Nodup, List.pairwise_map, List.pairwise_filterMap]
  refine (List.pairwise_map.1 h.distinct).imp_of_mem ?_
  intro m m' mem mem' different write wrote write' wrote' same
  have relative := h.relative m mem
  have relative' := h.relative m' mem'
  have place := Target.fst_of_writeOf h.target wrote
  have place' := Target.fst_of_writeOf h.target wrote'
  rw [Target.path, Dot.resolve_outputPath fs t.view h.down relative] at place
  rw [Target.path, Dot.resolve_outputPath fs t.view h.down relative'] at place'
  rw [place, place'] at same
  have parts := List.append_cancel_left same
  refine different ?_
  rw [Target.path, Target.path]
  rw [Dot.outputPath_of_relative relative, Dot.outputPath_of_relative relative'] at parts ⊢
  rw [Path.mk.injEq]
  exact ⟨rfl, parts⟩

/-- With a null character in the output directory, an export breaks off if a method is drawn. -/
theorem exportEnd_of_null (h : KeptApart t out methods) (null : out.hasNull = true)
    (fs : FileSystem) :
    (∃ m ∈ methods, Dot.skip? t.view m = none) ∧
      exportEnd ((t.turns FileSystem.disk methods fs).map Turn.outcome)
        = .broken (.blocked .nullCharacter) ∨
    (∀ m ∈ methods, Dot.skip? t.view m ≠ none) ∧
      exportEnd ((t.turns FileSystem.disk methods fs).map Turn.outcome) = .exit 0 := by
  have fate : ∀ turn ∈ t.turns FileSystem.disk methods fs,
      (∃ why, Dot.skip? t.view turn.method = some why ∧ turn.outcome = .skipped why) ∨
      Dot.skip? t.view turn.method = none ∧ turn.outcome = .blocked .nullCharacter := by
    intro turn mem
    have fate := h.outcome_of_null null (method_mem mem) turn.before
    rw [← eq_turn_of_mem mem] at fate
    exact fate
  rcases exportEnd_cases ((t.turns FileSystem.disk methods fs).map Turn.outcome) with
    ⟨outcome, mem, why, met, broken⟩ | ⟨free, ⟨⟨e, mem⟩, -⟩ | ⟨-, exit⟩⟩
  · obtain ⟨turn, taken, rfl⟩ := List.mem_map.1 mem
    rcases fate turn taken with ⟨why', -, skipped⟩ | ⟨drawn, blocked⟩
    · rw [skipped] at met
      cases met
    · rw [blocked] at met
      cases met
      exact .inl ⟨⟨turn.method, method_mem taken, drawn⟩, broken⟩
  · obtain ⟨turn, taken, failed⟩ := List.mem_map.1 mem
    rcases fate turn taken with ⟨why', -, skipped⟩ | ⟨-, blocked⟩
    · cases failed.symm.trans skipped
    · cases failed.symm.trans blocked
  · refine .inr ⟨fun m mem drawn => ?_, exit⟩
    rw [← map_method_turns (List.forall_mem_map.1 free)] at mem
    obtain ⟨turn, taken, rfl⟩ := List.mem_map.1 mem
    rcases fate turn taken with ⟨why, skip, -⟩ | ⟨-, blocked⟩
    · cases drawn.symm.trans skip
    · have going := free _ (List.mem_map_of_mem taken)
      rw [blocked] at going
      cases going

/-- An export ends in the same way in any order. -/
theorem exportEnd_perm (h : KeptApart t out methods) (perm : methods.Perm methods')
    (fs : FileSystem) :
    exportEnd ((t.turns FileSystem.disk methods fs).map Turn.outcome) =
      exportEnd ((t.turns FileSystem.disk methods' fs).map Turn.outcome) := by
  have h' := h.of_perm perm
  by_cases null : out.hasNull = true
  · rcases h.exportEnd_of_null null fs with ⟨⟨m, mem, drawn⟩, broken⟩ | ⟨skip, exit⟩
    · rcases h'.exportEnd_of_null null fs with ⟨-, broken'⟩ | ⟨skip', -⟩
      · rw [broken, broken']
      · exact absurd drawn (skip' m (perm.mem_iff.1 mem))
    · rcases h'.exportEnd_of_null null fs with ⟨⟨m, mem, drawn⟩, -⟩ | ⟨-, exit'⟩
      · exact absurd drawn (skip m (perm.mem_iff.2 mem))
      · rw [exit, exit']
  · have plain : out.hasNull = false := by simpa using null
    refine exportEnd_congr (List.forall_mem_map.2 (h.obstacle?_eq_none plain))
      (List.forall_mem_map.2 (h'.obstacle?_eq_none plain)) ?_
    rw [exists_failed_iff, exists_failed_iff, ← List.length_pos_iff, ← List.length_pos_iff,
      (h.failedMethods_perm perm fs).length_eq]

end KeptApart

/-! ## The order does not matter -/

/-- Methods whose graphs have different paths below the output directory may be exported in any
order: the same methods are exported, the same methods fail, the export ends in the same way, and
all files are the same after it.  No graph is written where another one needs a directory. -/
theorem exportAll_perm {outcomes outcomes' : List (Method × Outcome)} {fs₁ fs₂ : FileSystem}
    (apart : KeptApart t out methods) (perm : methods.Perm methods')
    (ran : t.exportAll FileSystem.disk methods fs = (outcomes, fs₁))
    (ran' : t.exportAll FileSystem.disk methods' fs = (outcomes', fs₂)) :
    (methodsWith Outcome.isWritten outcomes).Perm (methodsWith Outcome.isWritten outcomes') ∧
    (methodsWith Outcome.isFailed outcomes).Perm (methodsWith Outcome.isFailed outcomes') ∧
    exportEnd (outcomes.map Prod.snd) = exportEnd (outcomes'.map Prod.snd) ∧
    (∀ l, fs₁.contentAt l = fs₂.contentAt l) ∧
    ∀ m ∈ methods, ∀ m' ∈ methods, ¬ fs.OnWay (t.path out m').parent
      (resolve (fs.start (t.path out m)) (t.path out m).parts) := by
  have apart' := apart.of_perm perm
  rw [exportAll_eq] at ran ran'
  cases ran
  cases ran'
  refine ⟨apart.writtenMethods_perm perm fs, apart.failedMethods_perm perm fs,
    ?_, fun l => ?_, fun m mem m' mem' => ?_⟩
  · rw [results_map_snd, results_map_snd]
    exact apart.exportEnd_perm perm fs
  · rw [Target.contentAt_stateAfter, Target.contentAt_stateAfter,
      lastAt_of_perm _ (apart.writes_distinct fs)]
    rw [apart.writes_eq fs, apart'.writes_eq fs]
    exact perm.filterMap _
  · exact Dot.not_onWay_outputPath t.view apart.down (apart.relative m mem)
      (apart.relative m' mem')

namespace CommandLine

/-- What an export of methods into the file system of the mixed listing gives. -/
def mixedExport (methods : List Method) : List (Method × Outcome) × FileSystem :=
  mixedOptions.target.exportAll FileSystem.disk methods mixedFiles

theorem mixedMethods_anyOrder :
    KeptApart mixedOptions.target {} mixedMethods ∧
    (methodsWith Outcome.isWritten (mixedExport mixedMethods).1).length = 2 ∧
    (methodsWith Outcome.isFailed (mixedExport mixedMethods).1).length = 1 ∧
    (methodsWith Outcome.isWritten (mixedExport mixedMethods).1).Perm
      (methodsWith Outcome.isWritten (mixedExport mixedMethods.reverse).1) ∧
    ∀ l, (mixedExport mixedMethods).2.contentAt l =
      (mixedExport mixedMethods.reverse).2.contentAt l := by
  have apart : KeptApart mixedOptions.target {} mixedMethods :=
    { target := rfl
      down := by decide
      relative := by
        simp only [Method.ClassAtRoot]
        decide +kernel
      free := mixedMethods_nullFree
      distinct := by decide +kernel }
  have ran (methods : List Method) :
      mixedOptions.target.exportAll FileSystem.disk methods mixedFiles =
        ((mixedExport methods).1, (mixedExport methods).2) := rfl
  obtain ⟨written, -, -, same, -⟩ :=
    exportAll_perm apart mixedMethods.reverse_perm.symm (ran _) (ran _)
  exact ⟨apart, by decide +kernel, by decide +kernel, written, same⟩

end CommandLine

end FlowGraph
