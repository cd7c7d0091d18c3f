import FlowGraph.Proofs.Listing.Acceptance
import FlowGraph.Proofs.Listing.Loading
import FlowGraph.Proofs.Text.Position

/-!
# Where a listing fails

A text that is no listing is read up to the first place at which no token can stand with
which some listing goes on.  `read_error_isAt` says so, and that the error describes this
place: what stands there, what could have stood there instead, and its line and column.

`Reads` is what was read before that place, in the words of `Matches` and `Allowed` alone.
The reader tries more than is allowed, and it says so itself where that makes it find a
token which is not.  `Reader.Follows` ties a reader to what was read, and each kind of
failure is a lemma about a reader that follows.
-/

namespace FlowGraph.Listing

/-! ## Beginnings of listings -/

/-- Whether some listing begins with these tokens. -/
def Begins (ts : List Token) : Prop :=
  ∃ rest f, Derives (.symbol .start) f ∧ f.leaves = ts ++ rest

/-- Whether these tokens are a listing. -/
def IsListing (ts : List Token) : Prop := ∃ f, Derives (.symbol .start) f ∧ f.leaves = ts

theorem allowed_of_begins {before : List Token} {t : Token} (h : Begins (before ++ [t])) :
    Allowed before t.terminal := by
  obtain ⟨rest, f, derives, leaves⟩ := h
  exact ⟨t, rest, f, rfl, derives, by rw [leaves, List.append_assoc]; rfl⟩

section

variable {before : List Token} (spelled : ∀ t ∈ before, t.IsSpelled) {s : State}
  (run : (State.top []).run before = some s)

include spelled run

theorem begins_of_run : Begins before := by
  obtain ⟨rest, trees, spelledRest, closes⟩ := s.closable
  have whole : (State.top []).run (before ++ rest) = some (.top trees) := by
    rw [State.run_append, run]
    exact closes
  have all : ∀ t ∈ before ++ rest, t.IsSpelled := List.forall_mem_append.2 ⟨spelled, spelledRest⟩
  exact ⟨rest, _, (denotes_listing _).2 ⟨trees, rfl⟩, (State.run_top_iff all).1 whole⟩

/-- The tokens read are a listing if the reader may stop behind them. -/
theorem isListing_iff : IsListing before ↔ s.result?.isSome = true := by
  constructor
  · rintro ⟨f, derives, leaves⟩
    obtain ⟨trees, rfl⟩ := (denotes_listing f).1 derives
    rw [(State.run_top_iff spelled).2 leaves] at run
    cases run
    rfl
  · intro ends
    obtain ⟨trees, result⟩ := Option.isSome_iff_exists.1 ends
    rw [State.eq_top_of_result result] at run
    exact ⟨_, (denotes_listing _).2 ⟨trees, rfl⟩, (State.run_top_iff spelled).1 run⟩

end

/-! ## What was read -/

/-- The tokens that a text starts with, each of those with which some listing goes on; the
text from the last of them on; and the text behind it. -/
inductive Reads (text : Text) : List Token → Text → Text → Prop
  | nothing : Reads text [] text text
  | token {before : List Token} {mark rest start after : Text} {tok : Token} :
      Reads text before mark rest → Ignored rest start →
      Matches (Allowed before) start tok after → Reads text (before ++ [tok]) start after

theorem Ignored.suffix {text rest : Text} (h : Ignored text rest) : rest <:+ text := by
  induction h with
  | done => exact List.suffix_rfl
  | space _ _ ih => exact ih.trans (List.suffix_cons _ _)
  | comment _ _ _ ih => exact ih.trans (List.suffix_append _ _)

theorem Matches.suffix {allowed : Terminal → Prop} {text rest : Text} {tok : Token}
    (h : Matches allowed text tok rest) : rest <:+ text := by
  cases h with
  | @string body rest _ _ => exact ⟨'"' :: body ++ ['"'], by simp⟩
  | _ => exact List.suffix_append _ _

theorem Reads.suffix {text mark rest : Text} {before : List Token}
    (h : Reads text before mark rest) : mark <:+ text ∧ rest <:+ text := by
  induction h with
  | nothing => exact ⟨List.suffix_rfl, List.suffix_rfl⟩
  | token _ ignored found ih =>
      have start := ignored.suffix.trans ih.2
      exact ⟨start, found.suffix.trans start⟩

/-! ## Readers and what they have read -/

/-- Whether a reader stands behind some tokens of a text. -/
structure Reader.Follows (r : Reader) (text : Text) (before : List Token) (mark rest : Text) :
    Prop where
  /-- The tokens are those of the text, up to the rest. -/
  reads : Reads text before mark rest
  /-- Each token has the text of its terminal. -/
  spelled : ∀ t ∈ before, t.IsSpelled
  /-- The tokens lead to the reader's state. -/
  run : (State.top []).run before = some r.state
  /-- The reader tries all that may stand next. -/
  tries : ∀ k, r.state.accepts k = true → r.tries k = true
  /-- The reader knows the last token and where it stands. -/
  last_eq : r.last = before.getLast?.map fun t => (t, mark)

namespace Reader.Follows

variable {r : Reader} {text mark rest start after : Text} {before : List Token} {tok : Token}
  {state : State}

theorem initial (text : Text) : Reader.Follows {} text [] text text where
  reads := .nothing
  spelled := by simp
  run := rfl
  tries := fun _ hk => hk
  last_eq := rfl

/-- A reader that reads a token stands behind it. -/
theorem next (h : r.Follows text before mark rest) (ignored : Ignored rest start)
    (scanned : scan r.tries start = some (tok, after)) (step : r.state.step tok = some state) :
    Reader.Follows ⟨state, r.state.juncture tok.terminal, some (tok, start)⟩ text
      (before ++ [tok]) start after := by
  have found : Matches (Allowed before) start tok after :=
    (r.next_iff h.spelled h.run h.tries).2 ⟨scanned, by rw [step]; rfl⟩
  exact {
    reads := h.reads.token ignored found
    spelled := List.forall_mem_append.2 ⟨h.spelled, by simpa using found.isSpelled⟩
    run := by
      rw [State.run_append, h.run]
      show (r.state.step tok).bind _ = _
      rw [step]
      rfl
    tries := fun k hk => State.lexable_of_accepts step hk
    last_eq := by simp }

theorem allowed_iff (h : r.Follows text before mark rest) (k : Terminal) :
    Allowed before k ↔ r.state.accepts k = true := State.allowed_iff_accepts h.spelled h.run k

theorem previous_eq (h : r.Follows text before mark rest) : r.previous = before.getLast? := by
  rw [Reader.previous, h.last_eq, Option.map_map]
  exact congrFun Option.map_id _

/-- A reader that may not end there has read a token, and knows its place. -/
theorem exists_last (h : r.Follows text before mark rest) (result : r.state.result? = none) :
    ∃ t, r.last = some (t, mark) := by
  have nonempty : before ≠ [] := by
    rintro rfl
    have state : State.top [] = r.state := Option.some.inj h.run
    rw [← state] at result
    cases result
  rw [h.last_eq, List.getLast?_eq_some_getLast nonempty]
  exact ⟨_, rfl⟩

end Reader.Follows

/-! ## What an error says -/

/-- Whether what is expected is what may stand behind some tokens. -/
structure Expected.Lists (e : Expected) (before : List Token) : Prop where
  /-- The terminals are those with which some listing goes on. -/
  mem_terminals : ∀ k, k ∈ e.terminals ↔ Allowed before k
  /-- None of them is listed twice. -/
  nodup : e.terminals.Nodup
  /-- The end is listed if the tokens are a listing. -/
  ending_iff : e.ending = true ↔ IsListing before
  /-- A message names all these and nothing else. -/
  mem_names : ∀ arrowLabel name, name ∈ sortedNames arrowLabel e ↔
    (IsListing before ∧ name = endName) ∨ ∃ k, Allowed before k ∧ name = k.label arrowLabel

/-- The names in a message are those of the terminals that are expected and of the end. -/
theorem mem_sortedNames {e : Expected} {arrowLabel name : Text} :
    name ∈ sortedNames arrowLabel e ↔
      (e.ending = true ∧ name = endName) ∨ ∃ k ∈ e.terminals, name = k.label arrowLabel := by
  have ending : name ∈ (if e.ending then [endName] else []) ↔
      e.ending = true ∧ name = endName := by
    cases e.ending <;> simp
  rw [sortedNames, List.mem_mergeSort, List.mem_append, ending, List.mem_map]
  simp only [eq_comm (b := name)]

theorem Reader.Follows.expected {r : Reader} {text mark rest : Text} {before : List Token}
    (h : r.Follows text before mark rest) : r.expected.Lists before := by
  have terminals : ∀ k, k ∈ r.expected.terminals ↔ Allowed before k := by
    intro k
    simp [Reader.expected, h.allowed_iff, Terminal.mem_all]
  have ending : r.expected.ending = true ↔ IsListing before :=
    (isListing_iff h.spelled h.run).symm
  refine ⟨terminals, List.Pairwise.filter _ (by decide : Terminal.all.Nodup), ending, ?_⟩
  intro arrowLabel name
  rw [mem_sortedNames, ending]
  simp only [terminals]

/-! ## The four faults -/

/-- Whether a token is one that no listing goes on with, and what is expected instead is
what may stand there. -/
structure Rejects (before : List Token) (token : Token) (expected : Expected) : Prop where
  /-- No listing begins with the tokens and this one. -/
  not_begins : ¬ Begins (before ++ [token])
  /-- What is expected is what may stand behind the tokens. -/
  lists : expected.Lists before
  /-- The terminal of the token is not among it. -/
  not_mem : token.terminal ∉ expected.terminals

/-- Whether a fault is that of a text that goes on with `start` behind some tokens. -/
def Fault.Fits (before : List Token) (start : Text) : Fault → Prop
  -- Without names, keywords are read off the front of a word.
  | .unusable token expected =>
      (∃ after, Matches (· ≠ .name) start token after) ∧ Rejects before token expected
  | .misplaced token expected previous =>
      (∃ after, Matches (fun _ => True) start token after) ∧ Rejects before token expected ∧
        previous = before.getLast?
  | .unfinished expected => start = [] ∧ ¬ IsListing before ∧ expected.Lists before
  | .unmatched c _ _ previous =>
      start.head? = some c ∧ (∀ allowed tok after, ¬ Matches allowed start tok after) ∧
        previous = before.getLast?

/-- The text from the place on at which a fault is reported, given the text from the last
token on and what stands behind it.  An end that comes too early is reported at the last
token. -/
def Fault.place (mark start : Text) : Fault → Text
  | .unfinished _ => mark
  | _ => start

theorem Reader.Follows.rejects {r : Reader} {text mark rest : Text} {before : List Token}
    {tok : Token} (h : r.Follows text before mark rest)
    (unread : ¬ r.state.accepts tok.terminal = true) : Rejects before tok r.expected where
  not_begins := fun begins => unread ((h.allowed_iff _).1 (allowed_of_begins begins))
  lists := h.expected
  not_mem := fun mem => unread ((h.allowed_iff _).1 ((h.expected.mem_terminals _).1 mem))

theorem Matches.isSome_scan {allowed : Terminal → Bool} {text rest : Text} {tok : Token}
    (h : Matches (fun k => allowed k = true) text tok rest) : (scan allowed text).isSome = true := by
  rw [scan_eq_some_iff.2 h]
  rfl

/-- A terminal that is found among all is found wherever it is tried, if not as the same
token. -/
theorem isSome_scan_of_scan {allowed : Terminal → Bool} {text rest : Text} {tok : Token}
    (h : scan (fun _ => true) text = some (tok, rest)) (ht : allowed tok.terminal = true) :
    (scan allowed text).isSome = true := by
  cases scan_eq_some_iff.1 h with
  | string _ isBody => exact Matches.isSome_scan (.string ht isBody)
  | int _ numeral stops => exact Matches.isSome_scan (.int ht numeral stops)
  | name _ isWord stops _ =>
      rw [scan_word isWord, scanWord_whole ht isWord stops]
      rfl
  | @word k rest _ _ stops =>
      rw [scan_word (isWord_word k)]
      by_cases names : allowed .name = true
      · rw [scanWord_whole names (isWord_word k) stops]
        rfl
      · rw [scanWord_front names ht]
        rfl
  | front names _ => exact absurd rfl names
  | sign hs _ => exact Matches.isSome_scan (.sign hs ht)

/-- Where nothing is found among all terminals, nothing is found among some. -/
theorem Matches.isSome_scan_all {allowed : Terminal → Prop} {text rest : Text} {tok : Token}
    (h : Matches allowed text tok rest) : (scan (fun _ => true) text).isSome = true := by
  have words : ∀ {w rest : Text}, IsWord w → (scan (fun _ => true) (w ++ rest)).isSome = true := by
    intro w rest isWord
    rw [scan_word isWord]
    rfl
  cases h with
  | string _ isBody => exact isSome_scan (.string rfl isBody)
  | int _ numeral stops => exact isSome_scan (.int rfl numeral stops)
  | name _ isWord _ _ => exact words isWord
  | word _ _ _ => exact words (isWord_word _)
  | front _ _ => exact words (isWord_word _)
  | sign hs _ => exact isSome_scan (.sign hs rfl)

/-- What a syntax error says about the text it is the error of. -/
structure SyntaxError.IsAt (e : SyntaxError) (text : Text) (before : List Token)
    (mark start : Text) : Prop where
  /-- The text starts with the tokens, and then all blanks and comments. -/
  reads : ∃ rest, Reads text before mark rest ∧ Ignored rest start ∧ StopsAt startsIgnored start
  /-- Some listing begins with the tokens. -/
  begins : Begins before
  /-- No token follows with which some listing goes on. -/
  stuck : ∀ tok after, ¬ Matches (Allowed before) start tok after
  /-- The fault is that of what follows. -/
  fits : e.fault.Fits before start
  /-- The place is counted in what stands before it. -/
  counted : ∃ s, text = s ++ e.fault.place mark start ∧ e.position.Behind s

theorem exists_behind_positionOf {text rest : Text} (h : rest <:+ text) :
    ∃ s, text = s ++ rest ∧ (Text.positionOf text rest).Behind s := by
  obtain ⟨s, rfl⟩ := h
  exact ⟨s, rfl, Text.behind_positionOf s rest⟩

namespace Reader.Follows

variable {r : Reader} {text mark rest start : Text} {before : List Token}

/-- A reader that scans no token it can read is stuck. -/
theorem stuck (h : r.Follows text before mark rest)
    (none : ∀ tok after, scan r.tries start = some (tok, after) → (r.state.step tok).isSome = false) :
    ∀ tok after, ¬ Matches (Allowed before) start tok after := by
  intro tok after found
  obtain ⟨scanned, read⟩ := (r.next_iff h.spelled h.run h.tries).1 found
  rw [none tok after scanned] at read
  cases read

theorem isAt_unfinished (h : r.Follows text before mark rest) (skipped : skip false rest = [])
    (result : r.state.result? = none) :
    SyntaxError.IsAt ⟨r.endPosition text, .unfinished r.expected⟩ text before mark [] := by
  have incomplete : ¬ IsListing before := by
    rw [isListing_iff h.spelled h.run, result]
    nofun
  refine ⟨⟨rest, h.reads, skipped ▸ ignored_skip rest⟩, begins_of_run h.spelled h.run,
    fun _ _ found => found.ne_nil rfl, ⟨rfl, incomplete, h.expected⟩, ?_⟩
  obtain ⟨t, last⟩ := h.exists_last result
  rw [Reader.endPosition, last]
  exact exists_behind_positionOf h.reads.suffix.1

theorem isAt_unscannable {c : Char} {cs : Text} (h : r.Follows text before mark rest)
    (skipped : skip false rest = c :: cs) (scanned : scan r.tries (c :: cs) = none) :
    SyntaxError.IsAt ⟨Text.positionOf text (c :: cs), r.unscannable text c cs⟩ text before mark
      (c :: cs) := by
  have place : (r.unscannable text c cs).place mark (c :: cs) = c :: cs := by
    unfold Reader.unscannable
    split <;> rfl
  have gap : Ignored rest (c :: cs) ∧ StopsAt startsIgnored (c :: cs) :=
    skipped ▸ ignored_skip rest
  refine ⟨⟨rest, h.reads, gap⟩, begins_of_run h.spelled h.run, h.stuck ?_, ?_, ?_⟩
  · intro tok after found
    rw [scanned] at found
    cases found
  · unfold Reader.unscannable
    cases all : scan (fun _ => true) (c :: cs) with
    | none =>
        refine ⟨rfl, fun allowed tok after found => ?_, h.previous_eq⟩
        have some := found.isSome_scan_all
        rw [all] at some
        cases some
    | some found =>
        obtain ⟨tok, after⟩ := found
        have unread : ¬ r.state.accepts tok.terminal = true := by
          intro accepts
          have some := isSome_scan_of_scan all (h.tries _ accepts)
          rw [scanned] at some
          cases some
        refine ⟨⟨after, ?_⟩, h.rejects unread, h.previous_eq⟩
        simpa using scan_eq_some_iff.1 all
  · dsimp only
    rw [place]
    exact exists_behind_positionOf (gap.1.suffix.trans h.reads.suffix.2)

theorem isAt_unusable {c : Char} {cs after : Text} {tok : Token}
    (h : r.Follows text before mark rest) (skipped : skip false rest = c :: cs)
    (scanned : scan r.tries (c :: cs) = some (tok, after)) (step : r.state.step tok = none) :
    SyntaxError.IsAt ⟨Text.positionOf text (c :: cs), .unusable tok r.expected⟩ text before mark
      (c :: cs) := by
  have unread : ¬ r.state.accepts tok.terminal = true := by
    rw [← State.isSome_step, step]
    nofun
  have found := scan_eq_some_iff.1 scanned
  have nameless : ¬ r.tries .name = true := by
    intro names
    have same : r.tries = r.state.accepts := State.lexable_eq_accepts names
    rw [same] at found
    exact unread found.allowed
  have gap : Ignored rest (c :: cs) ∧ StopsAt startsIgnored (c :: cs) :=
    skipped ▸ ignored_skip rest
  refine ⟨⟨rest, h.reads, gap⟩, begins_of_run h.spelled h.run, h.stuck ?_,
    ⟨⟨after, ?_⟩, h.rejects unread⟩,
    exists_behind_positionOf (gap.1.suffix.trans h.reads.suffix.2)⟩
  · intro tok' after' scanned'
    rw [scanned] at scanned'
    cases scanned'
    rw [step]
    rfl
  · refine found.enlarge (fun k tried => ?_) fun names => absurd rfl names
    rintro rfl
    exact nameless tried

end Reader.Follows

/-- The induction is on what is left of the text. -/
theorem Reader.isAt_of_finish {r : Reader} {text mark rest : Text} {before : List Token}
    {e : SyntaxError} (h : r.Follows text before mark rest) (failed : r.finish text rest = .error e) :
    ∃ before mark start, e.IsAt text before mark start := by
  fun_induction Reader.finish r text rest generalizing before mark with
  | case1 r rest skipped trees result => cases failed
  | case2 r rest skipped result =>
      cases failed
      exact ⟨_, _, _, h.isAt_unfinished skipped result⟩
  | case3 r rest c cs skipped scanned =>
      cases failed
      exact ⟨_, _, _, h.isAt_unscannable skipped scanned⟩
  | case4 r rest c cs skipped tok after scanned step =>
      cases failed
      exact ⟨_, _, _, h.isAt_unusable skipped scanned step⟩
  | case5 r rest c cs skipped tok after scanned state step ih =>
      exact ih (h.next (skipped ▸ (ignored_skip rest).1) scanned step) failed

/-- A text that cannot be read is at fault behind the tokens with which some listing begins,
at the first place where no token follows with which some listing goes on. -/
theorem read_error_isAt {text : Text} {e : SyntaxError} (h : read text = .error e) :
    ∃ before mark start, e.IsAt text before mark start :=
  Reader.isAt_of_finish (.initial text) h

/-- A region whose attributes are followed by a keyword in place of its brace.  The keyword
is scanned, since it may stand behind the attributes of a method. -/
def bracelessListing : Text := Text.unlines
  [lit "method \"p.A\" \"f()V\" \x7b # body", lit "  region R \"\" [\"x\"] flags \x7d"]

/-- The error of that listing. -/
def bracelessError : SyntaxError :=
  ⟨⟨49, 2, 21⟩, .unusable ⟨.keyword .flags, lit "flags"⟩ ⟨[.lbrace], false⟩⟩

theorem bracelessListing_isAt :
    read bracelessListing = .error bracelessError ∧
    ∃ before mark start, bracelessError.IsAt bracelessListing before mark start := by
  have failed : read bracelessListing = .error bracelessError :=
    eq_error_of_failure? (by decide +kernel)
  exact ⟨failed, read_error_isAt failed⟩

end FlowGraph.Listing
