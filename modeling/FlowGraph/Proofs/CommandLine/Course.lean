import FlowGraph.CommandLine.Run
import FlowGraph.Proofs.Export.Turns
import FlowGraph.Proofs.Listing.Loading

/-!
# The course of a run

A `Course` is one of the ways in which a run with some options can go: the listing has no path,
cannot be read, is not encoded in UTF-8, is no listing, or its methods are exported.
`course_of_runWith` says that a run goes one of them, `Course.runWith_eq` that it goes no other,
and `exportEnd_cases` how it ends after an export.
-/

namespace FlowGraph.CommandLine

variable {σ : Type} {disk : Disk (StateM σ)} {o : Options} {s s' : σ} {report : Report}

/-! ## The ways of a run -/

/-- How a run with some options goes. -/
inductive Course (disk : Disk (StateM σ)) (o : Options) (s : σ) : Report → σ → Prop where
  /-- The path of the listing has a null character. -/
  | nullListing (null : o.listing.hasNull = true) :
      Course disk o s { ending := .broken (.blocked .nullCharacter) } s
  /-- The listing cannot be read. -/
  | unreadable {e : DiskError} {s₁ : σ} (plain : o.listing.hasNull = false)
      (taken : disk.read o.listing s = (.error e, s₁)) :
      Course disk o s (failure (lit "Error reading listing file: ") e.message) s₁
  /-- It is not encoded in UTF-8. -/
  | undecodable {bytes : List UInt8} {e : Text.Utf8Error} {s₁ : σ}
      (plain : o.listing.hasNull = false) (taken : disk.read o.listing s = (.ok bytes, s₁))
      (bad : Text.decode bytes = .error e) :
      Course disk o s { ending := .broken (.undecodable e) } s₁
  /-- It is no listing. -/
  | unparsable {bytes : List UInt8} {text : Text} {e : Listing.ListingError} {s₁ : σ}
      (plain : o.listing.hasNull = false) (taken : disk.read o.listing s = (.ok bytes, s₁))
      (decoded : Text.decode bytes = .ok text)
      (bad : Listing.parse (Text.unifyLineBreaks text) = .error e) :
      Course disk o s (failure (lit "Error parsing listing file: ") e.message) s₁
  /-- Its methods are exported. -/
  | exported {bytes : List UInt8} {text : Text} {methods : List Method} {s₁ : σ}
      (plain : o.listing.hasNull = false) (taken : disk.read o.listing s = (.ok bytes, s₁))
      (decoded : Text.decode bytes = .ok text)
      (parsed : Listing.parse (Text.unifyLineBreaks text) = .ok methods) :
      Course disk o s
        (exportReport o methods (results (o.target.turns disk methods s₁)))
        (stateAfter s₁ (o.target.turns disk methods s₁))

theorem course_of_runWith (ran : runWith disk o s = (report, s')) : Course disk o s report s' := by
  rw [runWith] at ran
  split at ran
  · next null =>
      cases ran
      exact .nullListing null
  · next plain =>
      replace plain := Bool.not_eq_true _ ▸ plain
      obtain ⟨read, s₁, taken, rest⟩ := exists_of_bind ran
      split at rest
      · cases rest
        exact .unreadable plain taken
      · next bytes =>
          rw [runOn] at rest
          cases decoded : Text.decode bytes with
          | error e =>
              rw [decoded] at rest
              cases rest
              exact .undecodable plain taken decoded
          | ok text =>
              simp only [decoded] at rest
              cases parsed : Listing.parse (Text.unifyLineBreaks text) with
              | error e =>
                  rw [parsed] at rest
                  cases rest
                  exact .unparsable plain taken decoded parsed
              | ok methods =>
                  rw [parsed] at rest
                  obtain ⟨outcomes, s₂, exported, ended⟩ := exists_of_bind rest
                  rw [exportAll_eq] at exported
                  cases exported
                  cases ended
                  exact .exported plain taken decoded parsed

/-- Which way a run goes is decided by the disk and the listing. -/
theorem Course.runWith_eq (course : Course disk o s report s') :
    runWith disk o s = (report, s') := by
  rw [runWith]
  cases course with
  | nullListing null =>
      rw [if_pos null]
      rfl
  | unreadable plain taken =>
      rw [if_neg (by simp [plain]), bind_eq_of taken]
      rfl
  | undecodable plain taken bad =>
      rw [if_neg (by simp [plain]), bind_eq_of taken]
      simp only [runOn, bad]
      rfl
  | unparsable plain taken decoded bad =>
      rw [if_neg (by simp [plain]), bind_eq_of taken]
      simp only [runOn, decoded, bad]
      rfl
  | exported plain taken decoded parsed =>
      rw [if_neg (by simp [plain]), bind_eq_of taken]
      simp only [runOn, decoded, parsed]
      rw [bind_eq_of (exportAll_eq _ _ _ _)]
      rfl

/-! ## The end of an export -/

theorem exportEnd_eq (outcomes : List Outcome) : exportEnd outcomes =
    match (outcomes.map Outcome.obstacle?).findSome? id with
    | some why => .broken (.blocked why)
    | none => if (outcomes.map Outcome.isFailed).any id then .exit 1 else .exit 0 := by
  rw [List.findSome?_map, List.any_map]
  rfl

/-- After an export a run breaks off if a method has met an obstacle.  Otherwise it ends with
exit code 1 if one has failed, and with exit code 0 if not. -/
theorem exportEnd_cases (outcomes : List Outcome) :
    (∃ outcome ∈ outcomes, ∃ why, outcome.obstacle? = some why ∧
      exportEnd outcomes = .broken (.blocked why)) ∨
    (∀ outcome ∈ outcomes, outcome.obstacle? = none) ∧
      ((∃ e, .failed e ∈ outcomes) ∧ exportEnd outcomes = .exit 1 ∨
        (∀ e, .failed e ∉ outcomes) ∧ exportEnd outcomes = .exit 0) := by
  rw [exportEnd]
  split
  · next why found =>
      obtain ⟨outcome, mem, met⟩ := List.exists_of_findSome?_eq_some found
      exact .inl ⟨outcome, mem, why, met, rfl⟩
  · next none =>
      refine .inr ⟨List.findSome?_eq_none_iff.1 none, ?_⟩
      split
      · next failed =>
          obtain ⟨outcome, mem, failed⟩ := List.any_eq_true.1 failed
          cases outcome with
          | failed e => exact .inl ⟨⟨e, mem⟩, rfl⟩
          | skipped _ => cases failed
          | written _ => cases failed
          | blocked _ => cases failed
      · next fine => exact .inr ⟨fun e mem => fine (List.any_eq_true.2 ⟨_, mem, rfl⟩), rfl⟩

/-- Without an obstacle the exit code says whether a method has failed. -/
theorem exportEnd_of_free {outcomes : List Outcome}
    (free : ∀ outcome ∈ outcomes, outcome.obstacle? = none) :
    (exportEnd outcomes = .exit 1 ↔ ∃ e, .failed e ∈ outcomes) ∧
    (exportEnd outcomes = .exit 0 ↔ ∀ e, .failed e ∉ outcomes) := by
  rcases exportEnd_cases outcomes with
    ⟨outcome, mem, why, met, -⟩ | ⟨-, ⟨⟨e, mem⟩, exit⟩ | ⟨fine, exit⟩⟩
  · cases (free outcome mem).symm.trans met
  · rw [exit]
    exact ⟨⟨fun _ => ⟨e, mem⟩, fun _ => rfl⟩, nofun, fun h => absurd mem (h e)⟩
  · rw [exit]
    exact ⟨⟨nofun, fun ⟨e, mem⟩ => absurd mem (fine e)⟩, fun _ => fine, fun _ => rfl⟩

/-- Two exports without obstacles end in the same way if both have failures or none has. -/
theorem exportEnd_congr {outcomes outcomes' : List Outcome}
    (free : ∀ outcome ∈ outcomes, outcome.obstacle? = none)
    (free' : ∀ outcome ∈ outcomes', outcome.obstacle? = none)
    (same : (∃ e, .failed e ∈ outcomes) ↔ ∃ e, .failed e ∈ outcomes') :
    exportEnd outcomes = exportEnd outcomes' := by
  by_cases failed : ∃ e, .failed e ∈ outcomes
  · rw [(exportEnd_of_free free).1.2 failed, (exportEnd_of_free free').1.2 (same.1 failed)]
  · rw [(exportEnd_of_free free).2.2 (not_exists.1 failed),
      (exportEnd_of_free free').2.2 (not_exists.1 (mt same.2 failed))]

/-- An export that ends with an exit code has met no obstacle. -/
theorem obstacle?_of_exit {outcomes : List Outcome} {code : Nat}
    (ended : exportEnd outcomes = .exit code) :
    ∀ outcome ∈ outcomes, outcome.obstacle? = none := by
  rcases exportEnd_cases outcomes with ⟨-, -, why, -, broken⟩ | ⟨free, -⟩
  · cases broken.symm.trans ended
  · exact free

/-! ## What is printed -/

/-- The line that reports a method whose graph could not be written. -/
def failureLine (m : Method) (e : DiskError) : Text :=
  lit "Error writing graph for " ++ m.fullName ++ lit ": " ++ e.message

/-- The lines on standard error about some turns. -/
def errorLinesOf (o : Options) (turns : List (Turn σ)) : List Text :=
  turns.flatMap fun turn => errorLines o turn.method turn.outcome

theorem failureLine_mem (o : Options) (m : Method) (e : DiskError) :
    failureLine m e ∈ errorLines o m (.failed e) := by
  rw [errorLines]
  exact List.mem_append_right _ List.mem_cons_self

theorem results_map_snd (turns : List (Turn σ)) :
    (results turns).map Prod.snd = turns.map Turn.outcome := by
  rw [results, List.map_map]
  rfl

/-- The path at which a graph has been written. -/
def writtenPath? : Outcome → Option Path
  | .written path => some path
  | _ => none

/-- The paths at which graphs have been written in some turns. -/
def writtenPaths (turns : List (Turn σ)) : List Path :=
  (turns.map Turn.outcome).filterMap writtenPath?

theorem mem_writtenPaths {turns : List (Turn σ)} {path : Path} :
    path ∈ writtenPaths turns ↔ ∃ turn ∈ turns, turn.outcome = .written path := by
  rw [writtenPaths, List.filterMap_map, List.mem_filterMap]
  refine exists_congr fun turn => and_congr_right fun _ => ?_
  rw [Function.comp_apply]
  cases turn.outcome <;> simp [writtenPath?]

theorem ending_exportReport (methods : List Method) (turns : List (Turn σ)) :
    (exportReport o methods (results turns)).ending = exportEnd (turns.map Turn.outcome) := by
  show exportEnd ((results turns).map Prod.snd) = _
  rw [results_map_snd]

theorem flatMap_outputLines (outcomes : List Outcome) :
    outcomes.flatMap outputLines = (outcomes.filterMap writtenPath?).map Path.text := by
  induction outcomes with
  | nil => rfl
  | cons outcome rest ih =>
      rw [List.flatMap_cons, ih, List.filterMap_cons]
      cases outcome <;> rfl

theorem out_exportReport (methods : List Method) (turns : List (Turn σ)) :
    (exportReport o methods (results turns)).out =
      Text.unlines ((if o.dump then methods.map Method.outline else [])
        ++ (writtenPaths turns).map Path.text) := by
  rw [writtenPaths, ← flatMap_outputLines, List.flatMap_map]
  show Text.unlines (_ ++ (results turns).flatMap fun p => outputLines p.2) = _
  rw [results, List.flatMap_map]

theorem err_exportReport (methods : List Method) (turns : List (Turn σ)) :
    (exportReport o methods (results turns)).err = Text.unlines (errorLinesOf o turns) := by
  show Text.unlines ((results turns).flatMap fun p => errorLines o p.1 p.2) = _
  rw [results, List.flatMap_map]
  rfl

/-! ## A listing with all outcomes -/

/-- Methods of which the second has no code. -/
def mixedMethods : List Method :=
  [{ className := lit "p.A", shortId := lit "f()V" },
   { className := lit "p.B", shortId := lit "f()V", noCode := true },
   { className := lit "q.A", shortId := lit "f()V" },
   { className := lit "p.C", shortId := lit "f()V" }]

theorem mixedMethods_nullFree : ∀ m ∈ mixedMethods, m.NullFree := by
  have names : ∀ m ∈ mixedMethods, '\x00' ∉ m.className ∧ '\x00' ∉ m.shortId := by decide +kernel
  exact fun m mem => ⟨(names m mem).1, (names m mem).2⟩

/-- The listing of these methods. -/
def mixedListing : Text :=
  Text.unlines
    [lit "method \"p.A\" \"f()V\" \x7b \x7d", lit "method \"p.B\" \"f()V\" \x7b nocode \x7d",
     lit "method \"q.A\" \"f()V\" \x7b \x7d", lit "method \"p.C\" \"f()V\" \x7b \x7d"]

/-- A file system that holds the listing, and a file where the third method needs a
directory. -/
def mixedFiles : FileSystem where
  entries := [([lit "m.cfg"], .file (Text.encode mixedListing)), ([lit "q"], .file [])]

/-- What the arguments of a run on this listing ask for. -/
def mixedOptions : Options := { listing := .ofText (lit "m.cfg"), output := some {} }

theorem mixedOptions_asked : Request.ofArguments [lit "m.cfg"] = .ok (.run mixedOptions) := by
  decide +kernel

/-- What such a run prints, and what it leaves. -/
def mixedRun : Report × FileSystem := run FileSystem.disk [lit "m.cfg"] mixedFiles

theorem mixedListing_read : FileSystem.disk.read mixedOptions.listing mixedFiles
    = (.ok (Text.encode mixedListing), mixedFiles) := Prod.ext (by decide +kernel) rfl

theorem mixedListing_decoded : Text.decode (Text.encode mixedListing) = .ok mixedListing := by
  decide +kernel

theorem mixedListing_parsed : Listing.parse (Text.unifyLineBreaks mixedListing)
    = .ok mixedMethods := Listing.eq_ok_of_toOption (by decide +kernel)

end FlowGraph.CommandLine
