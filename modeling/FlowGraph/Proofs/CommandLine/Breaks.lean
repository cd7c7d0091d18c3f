import FlowGraph.Proofs.CommandLine.Course

/-!
# Runs that break off

A run with some options ends with exit code 0 or 1 unless something breaks it off, and
`run_exits_iff` says what that is: a null character in the path of the listing, a listing that
is not encoded in UTF-8, or a method that is to be drawn and has no path.  Every other thing
that goes wrong is reported, and the export goes on (`Reports`).  A listing that is not encoded
in UTF-8 is a file like any other, but nothing reports it (`undecodableListing_breaks`).
-/

namespace FlowGraph.CommandLine

variable {σ : Type} {disk : Disk (StateM σ)} {o : Options} {s s' : σ} {report : Report}

/-! ## Nothing breaks off -/

/-- Whether nothing breaks a run off. -/
structure RunsThrough (disk : Disk (StateM σ)) (o : Options) (s : σ) : Prop where
  /-- The path of the listing has no null character. -/
  plain : o.listing.hasNull = false
  /-- The listing is encoded in UTF-8 if it can be read. -/
  decodable : ∀ bytes s₁, disk.read o.listing s = (.ok bytes, s₁) →
    ∃ text, Text.decode bytes = .ok text
  /-- If it is a listing, none of its methods stops the export in its turn. -/
  unstopped : ∀ bytes text methods s₁, disk.read o.listing s = (.ok bytes, s₁) →
    Text.decode bytes = .ok text → Listing.parse (Text.unifyLineBreaks text) = .ok methods →
    ∀ turn ∈ o.target.turns disk methods s₁, ¬ o.target.Stops disk turn.method turn.before

/-- Whether a run reports what goes wrong, and goes on where it can. -/
structure Reports (disk : Disk (StateM σ)) (o : Options) (s : σ) (report : Report) : Prop where
  /-- A listing that cannot be read is reported. -/
  read : ∀ e s₁, disk.read o.listing s = (.error e, s₁) → report.ending = .exit 1 ∧
    report.err = lit "Error reading listing file: " ++ e.message ++ ['\n']
  /-- A text that is no listing is reported. -/
  parse : ∀ bytes text e s₁, disk.read o.listing s = (.ok bytes, s₁) →
    Text.decode bytes = .ok text → Listing.parse (Text.unifyLineBreaks text) = .error e →
    report.ending = .exit 1 ∧
      report.err = lit "Error parsing listing file: " ++ e.message ++ ['\n']
  /-- All methods have their turns, and those that fail are reported. -/
  write : ∀ bytes text methods s₁, disk.read o.listing s = (.ok bytes, s₁) →
    Text.decode bytes = .ok text → Listing.parse (Text.unifyLineBreaks text) = .ok methods →
    (o.target.turns disk methods s₁).map Turn.method = methods ∧
    report.err = Text.unlines (errorLinesOf o (o.target.turns disk methods s₁)) ∧
    ∀ turn ∈ o.target.turns disk methods s₁, ∀ e, turn.outcome = .failed e →
      failureLine turn.method e ∈ errorLines o turn.method turn.outcome ∧
      report.ending = .exit 1

/-! ## Exports that break off -/

/-- An export ends with exit code 0 or 1 if no method stops it, and breaks off if one does. -/
theorem exit_or_broken (methods : List Method) :
    (∀ turn ∈ o.target.turns disk methods s, ¬ o.target.Stops disk turn.method turn.before) ∧
      (∃ code, code ≤ 1 ∧
        exportEnd ((o.target.turns disk methods s).map Turn.outcome) = .exit code) ∨
    (∃ turn ∈ o.target.turns disk methods s, o.target.Stops disk turn.method turn.before) ∧
      ∃ b, exportEnd ((o.target.turns disk methods s).map Turn.outcome) = .broken b := by
  rcases exportEnd_cases ((o.target.turns disk methods s).map Turn.outcome) with
    ⟨outcome, mem, why, met, broken⟩ | ⟨free, exits⟩
  · obtain ⟨turn, taken, rfl⟩ := List.mem_map.1 mem
    refine .inr ⟨⟨turn, taken, ?_⟩, _, broken⟩
    by_contra going
    cases met.symm.trans ((obstacle?_of_mem_iff taken).2 going)
  · refine .inl ⟨fun turn mem => ?_, ?_⟩
    · exact (obstacle?_of_mem_iff mem).1 (free _ (List.mem_map_of_mem mem))
    · rcases exits with ⟨-, exit⟩ | ⟨-, exit⟩
      · exact ⟨1, Nat.le_refl 1, exit⟩
      · exact ⟨0, Nat.zero_le 1, exit⟩

/-! ## Runs -/

theorem runsThrough_of_unreadable {e : DiskError} {s₁ : σ} (plain : o.listing.hasNull = false)
    (taken : disk.read o.listing s = (.error e, s₁)) : RunsThrough disk o s where
  plain := plain
  decodable := by
    intro bytes s₂ taken'
    cases taken.symm.trans taken'
  unstopped := by
    intro bytes text methods s₂ taken'
    cases taken.symm.trans taken'

theorem runsThrough_of_unparsable {bytes : List UInt8} {text : Text} {e : Listing.ListingError}
    {s₁ : σ} (plain : o.listing.hasNull = false) (taken : disk.read o.listing s = (.ok bytes, s₁))
    (decoded : Text.decode bytes = .ok text)
    (bad : Listing.parse (Text.unifyLineBreaks text) = .error e) : RunsThrough disk o s where
  plain := plain
  decodable := by
    intro bytes s₂ taken'
    cases taken.symm.trans taken'
    exact ⟨text, decoded⟩
  unstopped := by
    intro bytes text methods s₂ taken' decoded' parsed
    cases taken.symm.trans taken'
    cases decoded.symm.trans decoded'
    cases bad.symm.trans parsed

theorem runsThrough_of_unstopped {bytes : List UInt8} {text : Text} {methods : List Method}
    {s₁ : σ} (plain : o.listing.hasNull = false) (taken : disk.read o.listing s = (.ok bytes, s₁))
    (decoded : Text.decode bytes = .ok text)
    (parsed : Listing.parse (Text.unifyLineBreaks text) = .ok methods)
    (free : ∀ turn ∈ o.target.turns disk methods s₁,
      ¬ o.target.Stops disk turn.method turn.before) :
    RunsThrough disk o s where
  plain := plain
  decodable := by
    intro bytes s₂ taken'
    cases taken.symm.trans taken'
    exact ⟨text, decoded⟩
  unstopped := by
    intro bytes text methods s₂ taken' decoded' parsed'
    cases taken.symm.trans taken'
    cases decoded.symm.trans decoded'
    cases parsed.symm.trans parsed'
    exact free

theorem Course.breaks (course : Course disk o s report s') (stuck : ¬ RunsThrough disk o s) :
    ∃ b, report.ending = .broken b := by
  cases course with
  | nullListing null => exact ⟨_, rfl⟩
  | unreadable plain taken => exact absurd (runsThrough_of_unreadable plain taken) stuck
  | undecodable plain taken bad => exact ⟨_, rfl⟩
  | unparsable plain taken decoded bad =>
      exact absurd (runsThrough_of_unparsable plain taken decoded bad) stuck
  | exported plain taken decoded parsed =>
      rw [ending_exportReport]
      rcases exit_or_broken _ with ⟨free, -⟩ | ⟨-, broken⟩
      · exact absurd (runsThrough_of_unstopped plain taken decoded parsed free) stuck
      · exact broken

theorem Course.exits (course : Course disk o s report s') (through : RunsThrough disk o s) :
    ∃ code, code ≤ 1 ∧ report.ending = .exit code := by
  cases course with
  | nullListing null =>
      rw [through.plain] at null
      cases null
  | unreadable plain taken => exact ⟨1, Nat.le_refl 1, rfl⟩
  | undecodable plain taken bad =>
      obtain ⟨text, decoded⟩ := through.decodable _ _ taken
      cases bad.symm.trans decoded
  | unparsable plain taken decoded bad => exact ⟨1, Nat.le_refl 1, rfl⟩
  | exported plain taken decoded parsed =>
      rw [ending_exportReport]
      rcases exit_or_broken _ with ⟨-, exit⟩ | ⟨⟨turn, mem, stops⟩, -⟩
      · exact exit
      · exact absurd stops (through.unstopped _ _ _ _ taken decoded parsed turn mem)

theorem reports_of_runWith (ran : runWith disk o s = (report, s'))
    (through : RunsThrough disk o s) : Reports disk o s report where
  read := by
    intro e s₁ taken
    cases (Course.unreadable through.plain taken).runWith_eq.symm.trans ran
    exact ⟨rfl, rfl⟩
  parse := by
    intro bytes text e s₁ taken decoded bad
    cases (Course.unparsable through.plain taken decoded bad).runWith_eq.symm.trans ran
    exact ⟨rfl, rfl⟩
  write := by
    intro bytes text methods s₁ taken decoded parsed
    cases (Course.exported through.plain taken decoded parsed).runWith_eq.symm.trans ran
    have free : ∀ turn ∈ o.target.turns disk methods s₁, turn.outcome.obstacle? = none :=
      fun turn mem => (obstacle?_of_mem_iff mem).2
        (through.unstopped _ _ _ _ taken decoded parsed turn mem)
    refine ⟨map_method_turns free, err_exportReport _ _, fun turn mem e failed => ?_⟩
    refine ⟨failed ▸ failureLine_mem o turn.method e, ?_⟩
    rw [ending_exportReport, (exportEnd_of_free (List.forall_mem_map.2 free)).1]
    exact ⟨e, List.mem_map.2 ⟨turn, mem, failed⟩⟩

/-- A run with some options ends with exit code 0 or 1 just if nothing breaks it off, and then
it reports what goes wrong. -/
theorem run_exits_iff {arguments : List Text}
    (asked : Request.ofArguments arguments = .ok (.run o))
    (ran : run disk arguments s = (report, s')) :
    ((∃ code, code ≤ 1 ∧ report.ending = .exit code) ↔ RunsThrough disk o s) ∧
    (RunsThrough disk o s → Reports disk o s report) ∧
    (¬ RunsThrough disk o s → ∃ b, report.ending = .broken b) := by
  rw [run, asked] at ran
  have course := course_of_runWith ran
  refine ⟨⟨?_, course.exits⟩, reports_of_runWith ran, course.breaks⟩
  rintro ⟨code, -, exit⟩
  by_contra stuck
  obtain ⟨b, broken⟩ := course.breaks stuck
  rw [exit] at broken
  cases broken

theorem mixedListing_reports :
    mixedRun.1.ending = .exit 1 ∧ RunsThrough FileSystem.disk mixedOptions mixedFiles ∧
    Reports FileSystem.disk mixedOptions mixedFiles mixedRun.1 := by
  have ends : mixedRun.1.ending = .exit 1 := by decide +kernel
  have ran : run FileSystem.disk [lit "m.cfg"] mixedFiles = (mixedRun.1, mixedRun.2) := rfl
  obtain ⟨exits, reports, -⟩ := run_exits_iff mixedOptions_asked ran
  have through := exits.1 ⟨1, Nat.le_refl 1, ends⟩
  exact ⟨ends, through, reports through⟩

/-- A file system with a listing that is not encoded in UTF-8. -/
def undecodableFiles : FileSystem where
  entries := [([lit "m.cfg"], .file [0xff])]

theorem undecodableListing_breaks :
    Request.ofArguments [lit "m.cfg"] = .ok (.run mixedOptions) ∧
    undecodableFiles.read mixedOptions.listing = .ok [0xff] ∧
    ¬ ∃ code, (run FileSystem.disk [lit "m.cfg"] undecodableFiles).1.ending = .exit code := by
  refine ⟨mixedOptions_asked, by decide +kernel, ?_⟩
  rintro ⟨code, exit⟩
  have broken : (run FileSystem.disk [lit "m.cfg"] undecodableFiles).1.ending
      = .broken (.undecodable ⟨0xff, 0, 1, .invalidStart⟩) := by decide +kernel
  rw [broken] at exit
  cases exit

end FlowGraph.CommandLine
