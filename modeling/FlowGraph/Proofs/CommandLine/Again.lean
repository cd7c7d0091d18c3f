import FlowGraph.Proofs.CommandLine.Course
import FlowGraph.Proofs.Export.Again

/-!
# Running again

A run that ends with an exit code changes no file but those of graphs, and takes nothing away.
A second run with the same arguments then ends with the same exit code, prints the same on
standard output, and changes no file (`run_again`).

The second run has to read what the first one has read.  So the listing must not be one of the
files that the first run writes (`SparesListing`).
-/

namespace FlowGraph.CommandLine

open FileSystem (Grows Standing)

variable {arguments : List Text} {o : Options} {methods : List Method}
  {fs fs' fs'' : FileSystem} {report report' : Report}

/-! ## What a run reads and writes -/

/-- Whether arguments name a listing of some methods. -/
def Lists (arguments : List Text) (fs : FileSystem) (o : Options) (methods : List Method) : Prop :=
  Request.ofArguments arguments = .ok (.run o) ∧ ∃ bytes text, fs.read o.listing = .ok bytes ∧
    Text.decode bytes = .ok text ∧ Listing.parse (Text.unifyLineBreaks text) = .ok methods

/-- Whether none of the graphs that are written is in the file of the listing. -/
def SparesListing (arguments : List Text) (fs fs' : FileSystem) : Prop :=
  ∀ o methods, Lists arguments fs o methods →
    ∀ path ∈ writtenPaths (o.target.turns FileSystem.disk methods fs),
      fs'.locate path ≠ fs'.locate o.listing

/-! ## What is printed again -/

/-- Exports that go the same way end in the same way. -/
theorem exportEnd_eq_of_alike {turns turns' : List (Turn FileSystem)}
    (h : List.Forall₂ Turn.Alike turns turns') :
    exportEnd (turns.map Turn.outcome) = exportEnd (turns'.map Turn.outcome) := by
  rw [exportEnd_eq, exportEnd_eq, map_outcome_eq_of_alike h fun _ _ => rfl,
    map_outcome_eq_of_alike h fun _ _ => rfl]

/-- Exports that go the same way write to the same paths. -/
theorem writtenPaths_eq_of_alike {turns turns' : List (Turn FileSystem)}
    (h : List.Forall₂ Turn.Alike turns turns') : writtenPaths turns = writtenPaths turns' := by
  have gathered (outcomes : List Outcome) : outcomes.filterMap writtenPath? =
      (outcomes.map writtenPath?).filterMap id := by rw [List.filterMap_map, Function.id_comp]
  rw [writtenPaths, writtenPaths, gathered, gathered, map_outcome_eq_of_alike h fun _ _ => rfl]

/-! ## Runs -/

/-- How a second run follows a first one. -/
structure Repeats (arguments : List Text) (fs fs' fs'' : FileSystem) (report report' : Report) :
    Prop where
  /-- The first run takes nothing away and changes no file but those of graphs. -/
  grows : Grows (fun l => ∃ o methods, Lists arguments fs o methods ∧
    o.target.GraphAt methods fs' l) fs fs'
  /-- The second run ends in the same way. -/
  ending_eq : report'.ending = report.ending
  /-- It prints the same on standard output. -/
  out_eq : report'.out = report.out
  /-- It changes no file. -/
  contentAt_eq : ∀ l, fs''.contentAt l = fs'.contentAt l

/-- A run that changes nothing is followed by the same one. -/
theorem Repeats.idle (arguments : List Text) (fs : FileSystem) (report : Report) :
    Repeats arguments fs fs fs report report := ⟨.refl fs, rfl, rfl, fun _ => rfl⟩

/-- A run that ends with an exit code and does not write to its listing goes the same way again. -/
theorem runWith_again {code : Nat} (home : fs.Standing)
    (asked : Request.ofArguments arguments = .ok (.run o))
    (ran : runWith FileSystem.disk o fs = (report, fs')) (ended : report.ending = .exit code)
    (spares : SparesListing arguments fs fs')
    (again : runWith FileSystem.disk o fs' = (report', fs'')) :
    Repeats arguments fs fs' fs'' report report' := by
  have first := ran
  cases course_of_runWith ran with
  | nullListing null => cases ended
  | unreadable plain taken =>
      obtain ⟨-, rfl⟩ := FileSystem.disk_read_iff.1 taken
      cases first.symm.trans again
      exact .idle arguments fs _
  | undecodable plain taken bad => cases ended
  | unparsable plain taken decoded bad =>
      obtain ⟨-, rfl⟩ := FileSystem.disk_read_iff.1 taken
      cases first.symm.trans again
      exact .idle arguments fs _
  | @exported bytes text methods s₁ plain taken decoded parsed =>
      obtain ⟨listed, rfl⟩ := FileSystem.disk_read_iff.1 taken
      have lists : Lists arguments fs o methods := ⟨asked, bytes, text, listed, decoded, parsed⟩
      rw [ending_exportReport] at ended
      have free := List.forall_mem_map.1 (obstacle?_of_exit ended)
      have alike := turns_again home free
      have listed' := read_stateAfter listed fun turn mem path written =>
        spares o methods lists path (mem_writtenPaths.2 ⟨turn, mem, written⟩)
      have course :=
        Course.exported plain (FileSystem.disk_read_iff.2 ⟨listed', rfl⟩) decoded parsed
      cases course.runWith_eq.symm.trans again
      refine ⟨?_, ?_, ?_, contentAt_again home free rfl⟩
      · exact (turns_grows o.target methods fs).mono fun l there => ⟨o, methods, lists, there⟩
      · rw [ending_exportReport, ending_exportReport, exportEnd_eq_of_alike alike]
      · rw [out_exportReport, out_exportReport, writtenPaths_eq_of_alike alike]

/-- After a run that has ended with an exit code and has not written to its listing, only files
of graphs have changed, and the same run ends in the same way, prints the same and changes no
file. -/
theorem run_again {code : Nat} (home : fs.Standing)
    (ran : run FileSystem.disk arguments fs = (report, fs'))
    (ended : report.ending = .exit code) (spares : SparesListing arguments fs fs')
    (again : run FileSystem.disk arguments fs' = (report', fs'')) :
    Repeats arguments fs fs' fs'' report report' := by
  rw [run] at ran again
  cases asked : Request.ofArguments arguments with
  | error e =>
      rw [asked] at ran again
      cases ran
      cases again
      exact .idle arguments fs _
  | ok request =>
      cases request with
      | help =>
          rw [asked] at ran again
          cases ran
          cases again
          exact .idle arguments fs _
      | run o =>
          rw [asked] at ran again
          exact runWith_again home asked ran ended spares again

/-- No graph of the mixed listing is written to the file of the listing. -/
theorem mixedRun_sparesListing : SparesListing [lit "m.cfg"] mixedFiles mixedRun.2 := by
  rintro o methods ⟨asked, bytes, text, listed, decoded, parsed⟩
  cases mixedOptions_asked.symm.trans asked
  cases (FileSystem.disk_read_iff.1 mixedListing_read).1.symm.trans listed
  cases mixedListing_decoded.symm.trans decoded
  cases mixedListing_parsed.symm.trans parsed
  decide +kernel

theorem mixedRun_repeats :
    mixedFiles.Standing ∧ mixedRun.1.ending = .exit 1 ∧
    Repeats [lit "m.cfg"] mixedFiles mixedRun.2
      (run FileSystem.disk [lit "m.cfg"] mixedRun.2).2 mixedRun.1
      (run FileSystem.disk [lit "m.cfg"] mixedRun.2).1 := by
  have home : mixedFiles.Standing := by
    intro l hl
    rw [List.prefix_nil.1 hl]
    rfl
  have ran : run FileSystem.disk [lit "m.cfg"] mixedFiles = (mixedRun.1, mixedRun.2) := rfl
  have ended : mixedRun.1.ending = .exit 1 := by decide +kernel
  exact ⟨home, ended, run_again home ran ended mixedRun_sparesListing rfl⟩

end FlowGraph.CommandLine
