import FlowGraph.Proofs.CommandLine.Course
import FlowGraph.Proofs.Export.Shared
import FlowGraph.Proofs.Export.Written

/-!
# Graphs that are kept

A run that ends with exit code 0 has met neither an obstacle nor a failure, so it has exported
the methods of the listing (`runWith_exports`).  Each graph is then in the file its path leads to,
unless the path of a later graph leads there too (`run_keepsGraphs`).  The names of files do not
tell all short ids apart, so this can happen (`clashingIds_lose_graph`).
-/

namespace FlowGraph.CommandLine

variable {fs fs' : FileSystem} {report : Report}

/-! ## Runs that end well -/

theorem isFine_of_exportEnd {outcomes : List Outcome} (done : exportEnd outcomes = .exit 0) :
    ∀ outcome ∈ outcomes, outcome.IsFine := by
  have free := obstacle?_of_exit done
  have fine := (exportEnd_of_free free).2.1 done
  exact fun outcome mem => ⟨free outcome mem, fun e failed => fine e (failed ▸ mem)⟩

/-- A run with some options that ends with exit code 0 has read a listing and exported its
methods. -/
theorem runWith_exports {o : Options} (ran : runWith FileSystem.disk o fs = (report, fs'))
    (done : report.ending = .exit 0) :
    ∃ bytes text methods, fs.read o.listing = .ok bytes ∧ Text.decode bytes = .ok text ∧
      Listing.parse (Text.unifyLineBreaks text) = .ok methods ∧
      Exports o.target methods fs fs' := by
  cases course_of_runWith ran with
  | nullListing null => cases done
  | unreadable plain taken => cases done
  | undecodable plain taken bad => cases done
  | unparsable plain taken decoded bad => cases done
  | @exported bytes text methods fs₁ plain taken decoded parsed =>
      obtain ⟨listed, rfl⟩ := FileSystem.disk_read_iff.1 taken
      have fine := isFine_of_exportEnd done
      exact ⟨bytes, text, methods, listed, decoded, parsed,
        exportAll_exports (exportAll_eq _ _ _ _) fun p hp => fine p.2 (List.mem_map_of_mem hp)⟩

/-! ## The files of graphs -/

/-- Whether the graphs of a listing are in their files: each of them but for those whose files
have been written again for later ones. -/
structure KeepsGraphs (out : Path) (v : Dot.View) (methods : List Method) (fs : FileSystem) :
    Prop where
  /-- A file holds the graph whose path leads there, if no later path leads there. -/
  kept : ∀ before m after, methods = before ++ m :: after → Dot.skip? v m = none →
    (∀ m' ∈ after, Dot.skip? v m' = none → ¬ Dot.SameFile fs out v m m') →
    ∃ graph, Dot.render v Dot.plainPrinter m = some graph ∧
      fs.read (Dot.outputPath out v m) = .ok (Text.encode graph)
  /-- Two graphs have one file just if their classes have one directory and their short ids
  become the same text. -/
  file_iff : ∀ m ∈ methods, ∀ m' ∈ methods, Dot.skip? v m = none → Dot.skip? v m' = none →
    (Dot.SameFile fs out v m m' ↔
      fs.locate (Dot.outputPath out v m).parent = fs.locate (Dot.outputPath out v m').parent ∧
      Dot.escapeFileName m.shortId = Dot.escapeFileName m'.shortId)
  /-- Two classes below the output directory have one directory just if their names are the same
  path. -/
  directory_iff : ∀ m ∈ methods, ∀ m', Dot.skip? v m = none → ¬ m.ClassAtRoot →
    ¬ m'.ClassAtRoot →
    (fs.locate (Dot.outputPath out v m).parent = fs.locate (Dot.outputPath out v m').parent ↔
      (Path.ofText (Dot.classDirectory m)).parts = (Path.ofText (Dot.classDirectory m')).parts)

theorem keepsGraphs_of_exports {t : Target} {methods : List Method} {out : Path}
    (exports : Exports t methods fs fs') (target : t.output = some out) :
    KeepsGraphs out t.view methods fs' where
  kept := by
    rintro before m after rfl drawn last
    obtain ⟨l, found, holds⟩ := exports.holds target drawn
    refine ⟨(Dot.document t.view Dot.plainPrinter m).text, by rw [Dot.render, drawn], ?_⟩
    refine FileSystem.read_of_locate found (holds fun m' hm' drawn' found' => ?_)
    exact last m' hm' drawn' ⟨l, found, found'⟩
  file_iff := by
    intro m hm m' hm' drawn drawn'
    obtain ⟨l, found⟩ := exports.exists_location target hm drawn
    obtain ⟨l', found'⟩ := exports.exists_location target hm' drawn'
    exact Dot.sameFile_iff found found'
  directory_iff := by
    intro m hm m' drawn relative relative'
    obtain ⟨l, found⟩ := exports.exists_location target hm drawn
    obtain ⟨dir, above, -⟩ := Dot.locate_outputPath found
    exact Dot.locate_parent_eq_iff relative relative' above

/-- A run that ends with exit code 0 has printed the help text, or it has read a listing and
left each graph in its file but for those whose files have been written again for later ones.
Without an output directory it has had no graph to write. -/
theorem run_keepsGraphs {arguments : List Text}
    (ran : run FileSystem.disk arguments fs = (report, fs')) (done : report.ending = .exit 0) :
    (Request.ofArguments arguments = .ok .help ∧ fs' = fs) ∨
    ∃ o bytes text methods, Request.ofArguments arguments = .ok (.run o) ∧
      fs.read o.listing = .ok bytes ∧ Text.decode bytes = .ok text ∧
      Listing.parse (Text.unifyLineBreaks text) = .ok methods ∧
      ((o.output = none ∧ ∀ m ∈ methods, Dot.skip? o.view m ≠ none) ∨
        ∃ out, o.output = some out ∧ KeepsGraphs out o.view methods fs') := by
  rw [run] at ran
  cases asked : Request.ofArguments arguments with
  | error e =>
      rw [asked] at ran
      cases ran
      cases done
  | ok request =>
      cases request with
      | help =>
          rw [asked] at ran
          cases ran
          exact .inl ⟨rfl, rfl⟩
      | run o =>
          rw [asked] at ran
          obtain ⟨bytes, text, methods, read, decoded, parsed, exports⟩ :=
            runWith_exports ran done
          refine .inr ⟨o, bytes, text, methods, rfl, read, decoded, parsed, ?_⟩
          cases target : o.output with
          | none => exact .inl ⟨rfl, exports.skipped_of_noOutput target⟩
          | some out => exact .inr ⟨out, rfl, keepsGraphs_of_exports exports target⟩

/-! ## Two runs -/

/-- A method without blocks, told from others of its class by its short id. -/
def overload (shortId : Text) : Method := { className := lit "p.A", shortId }

/-- A listing of such methods. -/
def overloadListing (shortIds : List Text) : Text :=
  Text.unlines (shortIds.map fun shortId =>
    lit "method \"p.A\" \"" ++ shortId ++ lit "\" \x7b \x7d")

/-- A file system that holds the listing. -/
def overloadFiles (shortIds : List Text) : FileSystem where
  entries := [([lit "m.cfg"], .file (Text.encode (overloadListing shortIds)))]

/-- The arguments that ask for the graphs below a new directory. -/
def overloadArguments : List Text := [lit "m.cfg", lit "-o", lit "out"]

/-- What such a run prints, and what it leaves. -/
def overloadRun (shortIds : List Text) : Report × FileSystem :=
  run FileSystem.disk overloadArguments (overloadFiles shortIds)

/-- Two short ids that the names of files tell apart. -/
def distinctIds : List Text := [lit "f(I)V", lit "f(J)V"]

theorem distinctIds_keepsGraphs :
    (overloadRun distinctIds).1.ending = .exit 0 ∧
    KeepsGraphs (.ofText (lit "out")) {} (distinctIds.map overload) (overloadRun distinctIds).2 := by
  have ran : run FileSystem.disk overloadArguments (overloadFiles distinctIds)
      = ((overloadRun distinctIds).1, (overloadRun distinctIds).2) := rfl
  have done : (overloadRun distinctIds).1.ending = .exit 0 := by decide +kernel
  have asked : Request.ofArguments overloadArguments = .ok (.run
      { listing := .ofText (lit "m.cfg"), output := some (.ofText (lit "out")) }) := by
    decide +kernel
  have listed : (overloadFiles distinctIds).read (.ofText (lit "m.cfg"))
      = .ok (Text.encode (overloadListing distinctIds)) := by decide +kernel
  have decoded : Text.decode (Text.encode (overloadListing distinctIds))
      = .ok (overloadListing distinctIds) := by decide +kernel
  have parsed : Listing.parse (Text.unifyLineBreaks (overloadListing distinctIds))
      = .ok (distinctIds.map overload) := Listing.eq_ok_of_toOption (by decide +kernel)
  refine ⟨done, ?_⟩
  rcases run_keepsGraphs ran done with
    ⟨help, -⟩ | ⟨o, bytes, text, methods, asked', listed', decoded', parsed', h⟩
  · cases asked.symm.trans help
  · cases asked.symm.trans asked'
    cases listed.symm.trans listed'
    cases decoded.symm.trans decoded'
    cases parsed.symm.trans parsed'
    rcases h with ⟨none, -⟩ | ⟨out, target, keeps⟩
    · cases none
    · cases target
      exact keeps

/-- Two short ids that become the same text in the names of files. -/
def clashingIds : List Text := [lit "f(La/B;)V", lit "f(La$B;)V"]

theorem clashingIds_lose_graph :
    (overloadRun clashingIds).1.ending = .exit 0 ∧
    Listing.parse (Text.unifyLineBreaks (overloadListing clashingIds))
      = .ok (clashingIds.map overload) ∧
    clashingIds.Nodup ∧
    ∃ m ∈ clashingIds.map overload, Dot.skip? {} m = none ∧
      ¬ ∃ graph, Dot.render {} Dot.plainPrinter m = some graph ∧
        (overloadRun clashingIds).2.read (Dot.outputPath (.ofText (lit "out")) {} m)
          = .ok (Text.encode graph) := by
  refine ⟨by decide +kernel, Listing.eq_ok_of_toOption (by decide +kernel), by decide +kernel,
    overload (lit "f(La/B;)V"), List.mem_cons_self, by decide +kernel, ?_⟩
  rintro ⟨graph, drawn, holds⟩
  have lost : (Dot.render {} Dot.plainPrinter (overload (lit "f(La/B;)V"))).map
      (fun graph => Except.ok (Text.encode graph)) ≠ some ((overloadRun clashingIds).2.read
        (Dot.outputPath (.ofText (lit "out")) {} (overload (lit "f(La/B;)V")))) := by
    decide +kernel
  refine lost ?_
  rw [drawn, holds]
  rfl

end FlowGraph.CommandLine
