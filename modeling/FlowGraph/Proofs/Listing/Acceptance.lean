import FlowGraph.Listing.Read
import FlowGraph.Proofs.Listing.Allowed
import FlowGraph.Proofs.Listing.Match

/-!
# The reader accepts its grammar

`Scans before text ts` says how a text is cut into tokens without a word about states: at
each point blanks and comments are left out and a token is matched among those with which
some listing goes on.  `read_iff_derives` says that a text is read exactly if the tokens it is cut
into are those of a derivation, and that what is read is that derivation.

The scanner tries more than what may stand next at three kinds of places.  That makes no
difference (`Matches.enlarge`, `Matches.restrict`): it tries more only where no name may
stand, and there a token does not depend on what else is tried.
-/

namespace FlowGraph.Listing

/-- The tokens of a text that stands behind tokens already read. -/
inductive Scans : List Token → Text → List Token → Prop
  | done {before : List Token} {text : Text} : Ignored text [] → Scans before text []
  | token {before ts : List Token} {text start rest : Text} {tok : Token} :
      Ignored text start → Matches (Allowed before) start tok rest →
      Scans (before ++ [tok]) rest ts → Scans before text (tok :: ts)

/-! ## What the scanner tries -/

section Sets

variable {small large : Terminal → Prop} {text rest : Text} {tok : Token}

/-- A token stays one if more is tried, but for names. -/
theorem Matches.enlarge (sub : ∀ k, small k → large k) (names : large .name → small = large)
    (h : Matches small text tok rest) : Matches large text tok rest := by
  by_cases hn : large .name
  · exact names hn ▸ h
  cases h with
  | string allows isBody => exact .string (sub _ allows) isBody
  | int allows numeral stops => exact .int (sub _ allows) numeral stops
  | name allows _ _ _ => exact absurd (sub _ allows) hn
  | word allows _ _ => exact absurd (sub _ allows) hn
  | front _ allows => exact .front hn (sub _ allows)
  | sign hs allows => exact .sign hs (sub _ allows)

/-- A token that may stand is found if more is tried, but for names. -/
theorem Matches.restrict (sub : ∀ k, small k → large k) (names : large .name → small = large)
    (h : Matches large text tok rest) (allows : small tok.terminal) :
    Matches small text tok rest := by
  by_cases hn : large .name
  · exact names hn ▸ h
  cases h with
  | string _ isBody => exact .string allows isBody
  | int _ numeral stops => exact .int allows numeral stops
  | name hl _ _ _ => exact absurd hl hn
  | word hl _ _ => exact absurd hl hn
  | front _ _ => exact .front (fun h => hn (sub _ h)) allows
  | sign hs _ => exact .sign hs allows

end Sets

/-! ## The next token -/

theorem scans_of_skip_nil {before ts : List Token} {text : Text} (h : skip false text = []) :
    Scans before text ts ↔ ts = [] := by
  constructor
  · intro scans
    cases scans with
    | done _ => rfl
    | token ignored tok _ =>
        have eq := skip_eq_of_ignored ignored tok.stopsAt
        rw [h] at eq
        exact absurd eq.symm tok.ne_nil
  · rintro rfl
    exact .done (h ▸ (ignored_skip text).1)

theorem scans_of_skip_cons {before ts : List Token} {text cs : Text} {c : Char}
    (h : skip false text = c :: cs) :
    Scans before text ts ↔ ∃ tok rest ts', ts = tok :: ts' ∧
      Matches (Allowed before) (c :: cs) tok rest ∧ Scans (before ++ [tok]) rest ts' := by
  constructor
  · intro scans
    cases scans with
    | done ignored =>
        have eq := skip_eq_of_ignored ignored (by rintro d ⟨⟩)
        rw [h] at eq
        cases eq
    | token ignored tok scans =>
        have eq := skip_eq_of_ignored ignored tok.stopsAt
        rw [h] at eq
        subst eq
        exact ⟨_, _, _, rfl, tok, scans⟩
  · rintro ⟨tok, rest, ts', rfl, found, scans⟩
    exact .token (h ▸ (ignored_skip text).1) found scans

/-- The token that may stand next is the one that the scanner finds, if it can be read. -/
theorem Reader.next_iff (r : Reader) {before : List Token} (spelled : ∀ t ∈ before, t.IsSpelled)
    (run : (State.top []).run before = some r.state)
    (tries : ∀ k, r.state.accepts k = true → r.tries k = true) {text rest : Text} {tok : Token} :
    Matches (Allowed before) text tok rest ↔
      scan r.tries text = some (tok, rest) ∧ (r.state.step tok).isSome = true := by
  have same : Allowed before = fun k => r.state.accepts k = true :=
    funext fun k => propext (State.allowed_iff_accepts spelled run k)
  have names : r.tries .name = true →
      (fun k => r.state.accepts k = true) = fun k => r.tries k = true := by
    intro hn
    have eq : r.tries = r.state.accepts := State.lexable_eq_accepts hn
    rw [eq]
  rw [same, scan_eq_some_iff, State.isSome_step]
  constructor
  · intro found
    exact ⟨found.enlarge tries names, found.allowed⟩
  · rintro ⟨found, allows⟩
    exact found.restrict tries names allows

/-! ## The loop -/

theorem State.eq_top_of_result {s : State} {trees : List MethodTree}
    (h : s.result? = some trees) : s = top trees := by
  cases s with
  | top done =>
      cases h
      rfl
  | _ => cases h

/-- The rest of a text is read exactly if its tokens complete those already read. -/
theorem Reader.finish_iff (r : Reader) (text rest : Text) (before : List Token)
    (spelled : ∀ t ∈ before, t.IsSpelled) (run : (State.top []).run before = some r.state)
    (tries : ∀ k, r.state.accepts k = true → r.tries k = true) (trees : List MethodTree) :
    r.finish text rest = .ok trees ↔
      ∃ ts, Scans before rest ts ∧ (listingDerivation trees).leaves = before ++ ts := by
  fun_induction Reader.finish r text rest generalizing before with
  | case1 r rest skipped trees' result =>
      rw [State.eq_top_of_result result] at run
      constructor
      · rintro ⟨⟩
        refine ⟨[], (scans_of_skip_nil skipped).2 rfl, ?_⟩
        rw [List.append_nil]
        exact (State.run_top_iff spelled).1 run
      · rintro ⟨ts, scans, leaves⟩
        cases (scans_of_skip_nil skipped).1 scans
        rw [List.append_nil] at leaves
        rw [(State.run_top_iff spelled).2 leaves] at run
        cases run
        rfl
  | case2 r rest skipped result =>
      refine ⟨nofun, ?_⟩
      rintro ⟨ts, scans, leaves⟩
      cases (scans_of_skip_nil skipped).1 scans
      rw [List.append_nil] at leaves
      rw [(State.run_top_iff spelled).2 leaves] at run
      injection run with run
      rw [← run] at result
      cases result
  | case3 r rest c cs skipped scanned =>
      refine ⟨nofun, ?_⟩
      rintro ⟨ts, scans, leaves⟩
      obtain ⟨tok, rest', ts', -, found, -⟩ := (scans_of_skip_cons skipped).1 scans
      have next := ((r.next_iff spelled run tries).1 found).1
      rw [scanned] at next
      cases next
  | case4 r rest c cs skipped tok after scanned step =>
      refine ⟨nofun, ?_⟩
      rintro ⟨ts, scans, leaves⟩
      obtain ⟨tok', rest', ts', -, found, -⟩ := (scans_of_skip_cons skipped).1 scans
      obtain ⟨next, readable⟩ := (r.next_iff spelled run tries).1 found
      rw [scanned] at next
      cases next
      rw [step] at readable
      cases readable
  | case5 r rest c cs skipped tok after scanned state step ih =>
      have found : Matches (Allowed before) (c :: cs) tok after :=
        (r.next_iff spelled run tries).2 ⟨scanned, by rw [step]; rfl⟩
      have spelled' : ∀ t ∈ before ++ [tok], t.IsSpelled :=
        List.forall_mem_append.2 ⟨spelled, by simpa using found.isSpelled⟩
      have run' : (State.top []).run (before ++ [tok]) = some state := by
        rw [State.run_append, run]
        show (r.state.step tok).bind _ = _
        rw [step]
        rfl
      rw [ih _ spelled' run' fun k hk => State.lexable_of_accepts step hk]
      constructor
      · rintro ⟨ts, scans, leaves⟩
        refine ⟨tok :: ts, (scans_of_skip_cons skipped).2 ⟨tok, after, ts, rfl, found, scans⟩, ?_⟩
        rw [leaves, List.append_assoc]
        rfl
      · rintro ⟨ts, scans, leaves⟩
        obtain ⟨tok', rest', ts', rfl, found', scans'⟩ := (scans_of_skip_cons skipped).1 scans
        obtain ⟨rfl, rfl⟩ := found'.functional found
        refine ⟨ts', scans', ?_⟩
        rw [leaves, List.append_assoc]
        rfl

/-! ## The grammar -/

/-- A text is read exactly if the tokens it is cut into are derivable, and what is read is
their derivation, of which there is only one. -/
theorem read_iff_derives (text : Text) :
    (∀ trees, read text = .ok trees ↔ ∃ ts f, Scans [] text ts ∧ Derives (.symbol .start) f ∧
      f.leaves = ts ∧ f = listingDerivation trees) ∧
    ((∃ trees, read text = .ok trees) ↔
      ∃ ts f, Scans [] text ts ∧ Derives (.symbol .start) f ∧ f.leaves = ts) ∧
    (∀ f g, Derives (.symbol .start) f → Derives (.symbol .start) g → f.leaves = g.leaves →
      f = g) := by
  have readable : ∀ trees, read text = .ok trees ↔
      ∃ ts f, Scans [] text ts ∧ Derives (.symbol .start) f ∧ f.leaves = ts ∧
        f = listingDerivation trees := by
    intro trees
    have loop := Reader.finish_iff {} text text [] (by simp) rfl (fun _ hk => hk) trees
    rw [read, loop]
    constructor
    · rintro ⟨ts, scans, leaves⟩
      exact ⟨ts, _, scans, (denotes_listing _).2 ⟨trees, rfl⟩, leaves, rfl⟩
    · rintro ⟨ts, f, scans, -, leaves, rfl⟩
      exact ⟨ts, scans, leaves⟩
  refine ⟨readable, ?_, fun f g hf hg h => derivation_unique hf hg h⟩
  constructor
  · rintro ⟨trees, h⟩
    obtain ⟨ts, f, scans, derives, leaves, -⟩ := (readable trees).1 h
    exact ⟨ts, f, scans, derives, leaves⟩
  · rintro ⟨ts, f, scans, derives, leaves⟩
    obtain ⟨trees, rfl⟩ := (denotes_listing f).1 derives
    exact ⟨trees, (readable trees).2 ⟨ts, _, scans, derives, leaves, rfl⟩⟩

end FlowGraph.Listing
