import FlowGraph.Proofs.CommandLine.Course

/-!
# What becomes of the methods of a run

With an output directory and without null characters, a run accounts for every method of its
listing (`run_accounts`).  A method is left out, or its graph is written and can be read right
after, or the failure is reported, and none of this keeps the methods after it from having their
turns.  What is printed and how the run ends is put together from the turns (`Accounts`).

If the listing cannot be read or is no listing, nothing is printed on standard output and nothing
is changed.

The arguments need not give an output directory.  Then the first method that is drawn ends the
run, and nothing accounts for it (`valuelessOutput_unaccounted`).
-/

namespace FlowGraph.CommandLine

variable {σ : Type} {disk : Disk (StateM σ)} {o : Options} {out : Path} {methods : List Method}
  {s s' : σ} {report : Report}

/-! ## One method -/

/-- Whether a method is one to leave out. -/
def LeavesOut (v : Dot.View) (m : Method) : Prop :=
  m.noCode = true ∨ v.regions = true ∧ m.region = none

theorem skip?_eq_none_iff {v : Dot.View} {m : Method} :
    Dot.skip? v m = none ↔ ¬ LeavesOut v m := by
  rw [Dot.skip?, LeavesOut]
  cases m.noCode <;> cases v.regions <;> cases m.region <;> simp

/-- Whether what became of a method in its turn is accounted for. -/
def Accounted (disk : Disk (StateM σ)) (t : Target) (out : Path) (turn : Turn σ) : Prop :=
  match turn.outcome with
  | .skipped _ => LeavesOut t.view turn.method ∧ turn.after = turn.before
  | .written path => ¬ LeavesOut t.view turn.method ∧ path = t.path out turn.method ∧
      ∃ graph, Dot.render t.view Dot.plainPrinter turn.method = some graph ∧
        (disk.read path turn.after).1 = .ok (Text.encode graph)
  | .failed _ => ¬ LeavesOut t.view turn.method
  | .blocked _ => False

theorem accounted_turn {t : Target} {m : Method} (lawful : disk.Lawful)
    (target : t.output = some out) (plain : out.hasNull = false) (free : m.NullFree) :
    Accounted disk t out (t.turn disk m s) := by
  have ran : t.export disk m s = ((t.turn disk m s).outcome, (t.turn disk m s).after) := rfl
  have going := obstacle?_turn_iff.2 (not_stops target plain free : ¬ t.Stops disk m s)
  rw [Accounted]
  rcases export_cases ran with
    ⟨why, skip, outcome, same⟩ | ⟨drawn, ⟨none, -⟩ | ⟨out', target', written⟩⟩
  · rw [outcome]
    refine ⟨?_, same⟩
    by_contra kept
    cases skip.symm.trans (skip?_eq_none_iff.2 kept)
  · rw [target] at none
    cases none
  · cases target.symm.trans target'
    have kept : ¬ LeavesOut t.view m := skip?_eq_none_iff.1 drawn
    rcases writeBelow_cases written with
      ⟨-, outcome⟩ | ⟨-, ⟨e, outcome⟩ | ⟨outcome, s₁, done⟩⟩
    · rw [outcome] at going
      cases going
    · rw [outcome]
      exact kept
    · rw [outcome]
      have graph : Dot.render t.view Dot.plainPrinter m
          = some (Dot.document t.view Dot.plainPrinter m).text := by rw [Dot.render, drawn]
      exact ⟨kept, rfl, _, graph, lawful.read_of_write _ _ _ _ done⟩

/-! ## The whole export -/

/-- The lines that report the methods that fail in some turns. -/
def failureLines (turns : List (Turn σ)) : List Text :=
  turns.filterMap fun turn =>
    match turn.outcome with
    | .failed e => some (failureLine turn.method e)
    | _ => none

/-- Whether a line reports a method that has failed. -/
def reportsFailure (line : Text) : Bool := (lit "Error writing graph for ").isPrefixOf line

/-- Lines for debugging and for information report no failure. -/
theorem reportsFailure_level (t : Text) : reportsFailure (lit "DEBUG: " ++ t) = false ∧
    reportsFailure (lit "INFO: " ++ t) = false := ⟨rfl, rfl⟩

theorem filter_reportsFailure_ite {p : Prop} [Decidable p] {line : Text}
    (quiet : reportsFailure line = false) :
    (if p then [line] else []).filter reportsFailure = [] := by
  split
  · rw [List.filter_cons_of_neg (by simp [quiet])]
    rfl
  · rfl

/-- The lines about a method report its failure, if it has failed, once. -/
theorem filter_errorLines (o : Options) (m : Method) (outcome : Outcome) :
    (errorLines o m outcome).filter reportsFailure = match outcome with
      | .failed e => [failureLine m e]
      | _ => [] := by
  have debug (t : Text) : (if o.debug then [lit "DEBUG: " ++ t] else []).filter reportsFailure
      = [] := filter_reportsFailure_ite (reportsFailure_level t).1
  have info (t : Text) : (if o.debug || o.verbose then [lit "INFO: " ++ t]
      else []).filter reportsFailure = [] := filter_reportsFailure_ite (reportsFailure_level t).2
  have uncovered : (if o.view.regions then
      m.uncovered.flatMap fun i =>
        if o.debug then [lit "DEBUG: " ++ (lit "Block " ++ Text.integer (m.blockId i)
          ++ lit " of " ++ m.fullName ++ lit " is not covered by any region")] else []
      else []).filter reportsFailure = [] := by
    split
    · rw [List.filter_flatMap]
      exact List.flatMap_eq_nil_iff.2 fun i _ => debug _
    · rfl
  cases outcome with
  | skipped why =>
      simp only [errorLines, List.filter_append, debug, info]
      rfl
  | written path =>
      simp only [errorLines, List.filter_append, uncovered, debug]
      rfl
  | failed e =>
      simp only [errorLines, List.filter_append, uncovered]
      rfl
  | blocked why => simp only [errorLines, uncovered]

theorem filter_errorLinesOf (o : Options) (turns : List (Turn σ)) :
    (errorLinesOf o turns).filter reportsFailure = failureLines turns := by
  rw [errorLinesOf, failureLines]
  induction turns with
  | nil => rfl
  | cons turn rest ih =>
      rw [List.flatMap_cons, List.filter_append, ih, filter_errorLines, List.filterMap_cons]
      cases turn.outcome <;> rfl

/-- What a run with an output directory makes of the methods of its listing. -/
structure Accounts (disk : Disk (StateM σ)) (o : Options) (out : Path) (methods : List Method)
    (s : σ) (report : Report) (s' : σ) : Prop where
  /-- All methods have their turns in the order of the listing. -/
  methods_eq : (o.target.turns disk methods s).map Turn.method = methods
  /-- Each of them is accounted for. -/
  accounted : ∀ turn ∈ o.target.turns disk methods s, Accounted disk o.target out turn
  /-- Standard output has the outlines of all methods, if asked for, and the paths of the graphs
  that are written. -/
  out_eq : report.out = Text.unlines ((if o.dump then methods.map Method.outline else [])
    ++ (writtenPaths (o.target.turns disk methods s)).map Path.text)
  /-- Standard error has the lines about each method. -/
  err_eq : report.err = Text.unlines (errorLinesOf o (o.target.turns disk methods s))
  /-- Among these, one line reports each method that fails, and no other line reports any. -/
  reports : (errorLinesOf o (o.target.turns disk methods s)).filter reportsFailure
    = failureLines (o.target.turns disk methods s)
  /-- The exit code is 1 just if a method fails. -/
  failed_iff : report.ending = .exit 1 ↔
    ∃ turn ∈ o.target.turns disk methods s, ∃ e, turn.outcome = .failed e
  /-- It is 0 just if none does. -/
  fine_iff : report.ending = .exit 0 ↔
    ∀ turn ∈ o.target.turns disk methods s, ∀ e, turn.outcome ≠ .failed e
  /-- The disk is left as it is after the last turn. -/
  state_eq : s' = stateAfter s (o.target.turns disk methods s)

theorem accounts_export (lawful : disk.Lawful) (output : o.output = some out)
    (plain : out.hasNull = false) (free : ∀ m ∈ methods, m.NullFree) :
    Accounts disk o out methods s
      (exportReport o methods (results (o.target.turns disk methods s)))
      (stateAfter s (o.target.turns disk methods s)) := by
  have accounted : ∀ turn ∈ o.target.turns disk methods s, Accounted disk o.target out turn := by
    intro turn mem
    rw [eq_turn_of_mem mem]
    exact accounted_turn lawful output plain (free _ (method_mem mem))
  have going : ∀ turn ∈ o.target.turns disk methods s, turn.outcome.obstacle? = none :=
    fun turn mem => (obstacle?_of_mem_iff mem).2
      (not_stops output plain (free _ (method_mem mem)))
  obtain ⟨failed, fine⟩ := exportEnd_of_free (List.forall_mem_map.2 going)
  refine ⟨map_method_turns going, accounted, out_exportReport _ _, err_exportReport _ _,
    filter_errorLinesOf _ _, ?_, ?_, rfl⟩
  · rw [ending_exportReport, failed]
    simp only [List.mem_map]
    exact ⟨fun ⟨e, turn, mem, failed⟩ => ⟨turn, mem, e, failed⟩,
      fun ⟨turn, mem, e, failed⟩ => ⟨e, turn, mem, failed⟩⟩
  · rw [ending_exportReport, fine]
    simp only [List.mem_map]
    exact ⟨fun h turn mem e failed => h e ⟨turn, mem, failed⟩,
      fun h e ⟨turn, mem, failed⟩ => h turn mem e failed⟩

/-! ## Runs -/

/-- A run on a listing into an output directory accounts for every method of the listing, if
there are no null characters.  If the listing cannot be read or is no listing, the run prints
nothing on standard output, changes nothing, and ends with exit code 1. -/
theorem run_accounts {arguments : List Text} (lawful : disk.Lawful)
    (asked : Request.ofArguments arguments = .ok (.run o)) (readable : o.listing.hasNull = false)
    (ran : run disk arguments s = (report, s')) :
    (∀ e, (disk.read o.listing s).1 = .error e →
      report.ending = .exit 1 ∧ report.out = [] ∧ s' = s) ∧
    ∀ bytes text, (disk.read o.listing s).1 = .ok bytes → Text.decode bytes = .ok text →
      (∀ e, Listing.parse (Text.unifyLineBreaks text) = .error e →
        report.ending = .exit 1 ∧ report.out = [] ∧ s' = s) ∧
      ∀ methods out, Listing.parse (Text.unifyLineBreaks text) = .ok methods →
        o.output = some out → out.hasNull = false → (∀ m ∈ methods, m.NullFree) →
        Accounts disk o out methods s report s' := by
  rw [run, asked] at ran
  have same := lawful.read_same o.listing s
  refine ⟨fun e failed => ?_, fun bytes text taken decoded => ⟨fun e bad => ?_, ?_⟩⟩
  · cases (Course.unreadable readable (Prod.ext failed same)).runWith_eq.symm.trans ran
    exact ⟨rfl, rfl, rfl⟩
  · cases (Course.unparsable readable (Prod.ext taken same) decoded bad).runWith_eq.symm.trans ran
    exact ⟨rfl, rfl, rfl⟩
  · intro methods out parsed output plain free
    cases (Course.exported readable (Prod.ext taken same) decoded parsed).runWith_eq.symm.trans ran
    exact accounts_export lawful output plain free

theorem mixedListing_accounts :
    Accounts FileSystem.disk mixedOptions {} mixedMethods mixedFiles mixedRun.1 mixedRun.2 ∧
    (mixedOptions.target.turns FileSystem.disk mixedMethods mixedFiles).map Turn.outcome =
      [.written (.ofText (lit "p/A_graphs/f()V.dot")), .skipped .noCode,
        .failed ⟨.notDirectory, .ofText (lit "q/A_graphs")⟩,
        .written (.ofText (lit "p/C_graphs/f()V.dot"))] := by
  have ran : run FileSystem.disk [lit "m.cfg"] mixedFiles = (mixedRun.1, mixedRun.2) := rfl
  have read : (FileSystem.disk.read mixedOptions.listing mixedFiles).1
      = .ok (Text.encode mixedListing) := congrArg Prod.fst mixedListing_read
  have accounts := (run_accounts FileSystem.disk_lawful mixedOptions_asked (by decide +kernel)
    ran).2 _ _ read mixedListing_decoded
  exact ⟨accounts.2 mixedMethods {} mixedListing_parsed rfl (by decide +kernel)
    mixedMethods_nullFree, by decide +kernel⟩

/-- Arguments that name a listing, and an output switch whose value is lost. -/
def valuelessArguments : List Text := [lit "m.cfg", lit "-o--"]

theorem valuelessOutput_unaccounted :
    ∃ o, Request.ofArguments valuelessArguments = .ok (.run o) ∧
      mixedFiles.read o.listing = .ok (Text.encode mixedListing) ∧
      Listing.parse (Text.unifyLineBreaks mixedListing) = .ok mixedMethods ∧
      (∀ m ∈ mixedMethods, m.NullFree) ∧
      (run FileSystem.disk valuelessArguments mixedFiles).1
        = { ending := .broken (.blocked .noOutput) } := by
  refine ⟨{ mixedOptions with output := none }, ?_, ?_, mixedListing_parsed,
    mixedMethods_nullFree, ?_⟩
  · decide +kernel
  · decide +kernel
  · decide +kernel

end FlowGraph.CommandLine
