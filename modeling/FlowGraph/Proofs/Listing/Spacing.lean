import FlowGraph.Proofs.Listing.Layout
import FlowGraph.Proofs.Listing.Loading
import Mathlib.Data.List.Chain

/-!
# Spacing

The tokens of a listing may be written again with other blanks and comments before, between
and after them.  `parse_respaced` says that the methods stay the same, as long as something
stands between two tokens that would otherwise run together into one word.

Which tokens may stand at a place depends on the tokens before it and not on what is between
them (`Allowed`).  So a token found once is found again wherever its text does not run into
what follows (`Matches.respaced`), and a keyword that was read off the front of a word is
read off its own text.
-/

namespace FlowGraph.Listing

/-! ## The tokens of a text -/

/-- The tokens that a reader reads from the rest of a text, up to the place where it stops. -/
def Reader.tokens (r : Reader) (rest : Text) : List Token :=
  match _skipped : skip false rest with
  | [] => []
  | c :: cs =>
      match _scanned : scan r.tries (c :: cs) with
      | none => []
      | some (token, after) =>
          match r.state.step token with
          | none => []
          | some state =>
              token :: tokens ⟨state, r.state.juncture token.terminal, some (token, c :: cs)⟩ after
termination_by rest.length
decreasing_by
  have consumed := length_scan_lt _scanned
  have kept := length_skip_le false rest
  rw [_skipped] at kept
  omega

/-- The tokens that the reader reads from a text. -/
def tokens (text : Text) : List Token := Reader.tokens {} text

theorem Reader.tokens_of_skip_nil (r : Reader) {rest : Text} (skipped : skip false rest = []) :
    r.tokens rest = [] := by
  rw [Reader.tokens]
  split
  · rfl
  · next c cs other =>
      rw [skipped] at other
      cases other

theorem Reader.tokens_of_skip_cons (r : Reader) {rest cs after : Text} {c : Char} {token : Token}
    {state : State} (skipped : skip false rest = c :: cs)
    (scanned : scan r.tries (c :: cs) = some (token, after))
    (step : r.state.step token = some state) :
    r.tokens rest = token ::
      Reader.tokens ⟨state, r.state.juncture token.terminal, some (token, c :: cs)⟩ after := by
  rw [Reader.tokens]
  split
  · next none =>
      rw [skipped] at none
      cases none
  · next c' cs' same =>
      rw [skipped] at same
      cases same
      split
      · next none =>
          rw [scanned] at none
          cases none
      · next token' after' same =>
          rw [scanned] at same
          cases same
          rw [step]

/-- The reader reads the tokens that a text is cut into. -/
theorem Reader.tokens_of_scans {before ts : List Token} {text : Text} (scans : Scans before text ts)
    (r : Reader) (spelled : ∀ t ∈ before, t.IsSpelled)
    (run : (State.top []).run before = some r.state)
    (tries : ∀ k, r.state.accepts k = true → r.tries k = true) : r.tokens text = ts := by
  induction scans generalizing r with
  | done ignored => exact r.tokens_of_skip_nil (skip_eq_of_ignored ignored (by rintro c ⟨⟩))
  | @token before ts text start after tok ignored found _ ih =>
      obtain ⟨scanned, read⟩ := (r.next_iff spelled run tries).1 found
      obtain ⟨state, step⟩ := Option.isSome_iff_exists.1 read
      obtain ⟨c, cs, rfl⟩ := List.exists_cons_of_ne_nil found.ne_nil
      have run' : (State.top []).run (before ++ [tok]) = some state := by
        rw [State.run_append, run]
        show (r.state.step tok).bind _ = _
        rw [step]
        rfl
      have spelled' : ∀ t ∈ before ++ [tok], t.IsSpelled :=
        List.forall_mem_append.2 ⟨spelled, by simpa using found.isSpelled⟩
      rw [r.tokens_of_skip_cons (skip_eq_of_ignored ignored found.stopsAt) scanned step]
      exact congrArg (tok :: ·) (ih _ spelled' run' fun k hk => State.lexable_of_accepts step hk)

/-- A text is read exactly if the tokens of some trees are read from it, up to its end. -/
theorem read_eq_ok_iff {text : Text} {trees : List MethodTree} :
    read text = .ok trees ↔
      Scans [] text (tokens text) ∧ tokens text = (listingDerivation trees).leaves := by
  have loop := Reader.finish_iff {} text text [] (by simp) rfl (fun _ hk => hk) trees
  rw [read, loop]
  constructor
  · rintro ⟨ts, scans, leaves⟩
    have same : tokens text = ts :=
      Reader.tokens_of_scans scans {} (by simp) rfl fun _ hk => hk
    rw [same]
    exact ⟨scans, leaves.symm⟩
  · rintro ⟨scans, leaves⟩
    exact ⟨_, scans, leaves.symm⟩

/-! ## Tokens written again -/

/-- A text that may stand around tokens: blanks, and comments that end with their line. -/
inductive IsGap : Text → Prop
  | nil : IsGap []
  | blank {c : Char} {t : Text} : isSpace c = true → IsGap t → IsGap (c :: t)
  | comment {w t : Text} : '\n' ∉ w → IsGap t → IsGap ('#' :: w ++ '\n' :: t)

/-- Whether two tokens run together if nothing stands between them: the first ends and the
second starts with a letter, a digit or an underscore. -/
def Token.RunsInto (t u : Token) : Prop :=
  t.lexeme.getLast?.any isNameChar = true ∧ u.lexeme.head?.any isNameChar = true

instance (t u : Token) : Decidable (t.RunsInto u) := by
  unfold Token.RunsInto
  infer_instance

/-- Tokens with blanks and comments around them. -/
structure Spacing where
  /-- What stands before the first token. -/
  front : Text
  /-- The tokens in order, each with what stands behind it. -/
  spaced : List (Token × Text)
deriving DecidableEq, Repr

namespace Spacing

/-- The text of some tokens with what stands around them. -/
def text (s : Spacing) : Text := s.front ++ s.spaced.flatMap fun p => p.1.lexeme ++ p.2

/-- The tokens without what stands around them. -/
def tokens (s : Spacing) : List Token := s.spaced.map Prod.fst

/-- Whether blanks and comments are all that stands around the tokens, and no two tokens run
together. -/
structure Fits (s : Spacing) : Prop where
  /-- What stands before the first token may stand there. -/
  front : IsGap s.front
  /-- What stands behind a token may stand there. -/
  behind : ∀ p ∈ s.spaced, IsGap p.2
  /-- Tokens that would run together are kept apart. -/
  apart : s.spaced.IsChain fun p q => p.2 = [] → ¬ p.1.RunsInto q.1

end Spacing

/-! ## Finding the tokens again -/

theorem IsGap.ignored {gap : Text} (h : IsGap gap) (rest : Text) : Ignored (gap ++ rest) rest := by
  induction h with
  | nil => exact .done
  | blank blank _ ih => exact .space blank ih
  | @comment w t line _ ih =>
      have stops : StopsAt (· ≠ '\n') ('\n' :: (t ++ rest)) := by
        rintro c ⟨⟩
        rfl
      have whole : '#' :: w ++ '\n' :: t ++ rest = '#' :: w ++ '\n' :: (t ++ rest) := by simp
      rw [whole]
      exact .comment line stops (.space rfl ih)

/-- What stands between tokens does not go on with a word. -/
theorem IsGap.stopsAt {gap : Text} (h : IsGap gap) (ne : gap ≠ []) (rest : Text) :
    StopsAt isNameChar (gap ++ rest) := by
  cases h with
  | nil => exact absurd rfl ne
  | @blank c t blank _ =>
      rintro d ⟨⟩
      simp only [isSpace, List.mem_cons, List.not_mem_nil, or_false, decide_eq_true_eq] at blank
      rcases blank with rfl | rfl | rfl | rfl | rfl <;> decide
  | comment _ _ =>
      rintro d ⟨⟩
      decide

theorem IsWord.getLast?_any {w : Text} (h : IsWord w) : w.getLast?.any isNameChar = true := by
  obtain ⟨c, t, rfl, -, -⟩ := id h
  rw [List.getLast?_eq_some_getLast (List.cons_ne_nil c t)]
  exact h.forall_isNameChar _ (List.getLast_mem _)

/-- A token is found again before anything that it does not run into. -/
theorem Matches.respaced {allowed : Terminal → Prop} {text rest rest' : Text} {tok : Token}
    (h : Matches allowed text tok rest)
    (stops : tok.lexeme.getLast?.any isNameChar = true → StopsAt isNameChar rest') :
    Matches allowed (tok.lexeme ++ rest') tok rest' := by
  cases h with
  | @string body _ allows isBody =>
      have found : Matches allowed ('"' :: body ++ '"' :: rest')
          ⟨.string, '"' :: body ++ ['"']⟩ rest' :=
        .string allows isBody
      simpa using found
  | @int ds _ allows numeral _ =>
      refine .int allows numeral fun c hc => ?_
      have last : ds.getLast?.any isNameChar = true := by
        rw [List.getLast?_eq_some_getLast numeral.1]
        exact isNameChar_of_isDigit (numeral.2 _ (List.getLast_mem _))
      rw [Bool.eq_false_iff]
      intro digit
      have noName := stops last c hc
      rw [isNameChar_of_isDigit digit] at noName
      cases noName
  | name allows isWord _ none => exact .name allows isWord (stops isWord.getLast?_any) none
  | word allows hk _ => exact .word allows hk (stops (isWord_word _).getLast?_any)
  | front names hk => exact .front names hk
  | sign hs allows => exact .sign hs allows

theorem Matches.lexeme_ne_nil {allowed : Terminal → Prop} {text rest : Text} {tok : Token}
    (h : Matches allowed text tok rest) : tok.lexeme ≠ [] := by
  have found : Matches allowed (tok.lexeme ++ []) tok [] := h.respaced fun _ => by rintro c ⟨⟩
  rw [List.append_nil] at found
  exact found.ne_nil

theorem Scans.lexeme_ne_nil {before ts : List Token} {text : Text} (h : Scans before text ts) :
    ∀ t ∈ ts, t.lexeme ≠ [] := by
  induction h with
  | done _ => simp
  | token _ found _ ih => exact List.forall_mem_cons.2 ⟨found.lexeme_ne_nil, ih⟩

/-- A token that ends in a word does not run into what is written behind it. -/
theorem Spacing.Fits.stopsAt {front gap : Text} {t : Token} {spaced : List (Token × Text)}
    (fits : Fits ⟨front, (t, gap) :: spaced⟩) (ne : ∀ p ∈ spaced, p.1.lexeme ≠ [])
    (last : t.lexeme.getLast?.any isNameChar = true) :
    StopsAt isNameChar (text ⟨gap, spaced⟩) := by
  by_cases empty : gap = []
  · subst empty
    cases spaced with
    | nil => rintro c ⟨⟩
    | cons q spaced =>
        obtain ⟨u, behind⟩ := q
        have apart := (List.isChain_cons.1 fits.apart).1 (u, behind) rfl rfl
        obtain ⟨d, w, word⟩ := List.exists_cons_of_ne_nil (ne _ List.mem_cons_self)
        dsimp only at word
        rintro c hc
        have first : c = d := by simpa [text, word, eq_comm] using hc
        subst first
        rw [Bool.eq_false_iff]
        intro isName
        exact apart ⟨last, by rw [word]; exact isName⟩
  · exact (fits.behind _ List.mem_cons_self).stopsAt empty _

/-- The tokens that a text is cut into are found again with other blanks and comments around
them. -/
theorem Scans.respaced {before ts : List Token} {text : Text} (scans : Scans before text ts)
    {s : Spacing} (same : s.tokens = ts) (fits : s.Fits) : Scans before s.text ts := by
  obtain ⟨front, spaced⟩ := s
  induction scans generalizing front spaced with
  | done _ =>
      cases List.map_eq_nil_iff.1 same
      exact .done (fits.front.ignored [])
  | @token before ts text start after tok _ found scans ih =>
      obtain ⟨⟨t, gap⟩, spaced, rfl, rfl, tail⟩ := List.map_eq_cons_iff.1 same
      obtain ⟨gapFits, behind⟩ := List.forall_mem_cons.1 fits.behind
      have rest := ih gap spaced tail ⟨gapFits, behind, (List.isChain_cons.1 fits.apart).2⟩
      have ne : ∀ p ∈ spaced, p.1.lexeme ≠ [] := fun p hp =>
        scans.lexeme_ne_nil p.1 (tail ▸ List.mem_map_of_mem hp)
      have whole : Spacing.text ⟨front, (t, gap) :: spaced⟩
          = front ++ (t.lexeme ++ Spacing.text ⟨gap, spaced⟩) := by
        simp [Spacing.text]
      rw [whole]
      exact .token (fits.front.ignored _) (found.respaced (fits.stopsAt ne)) rest

/-- The same trees are read if the tokens of a text are written again. -/
theorem read_respaced {text : Text} {trees : List MethodTree} (h : read text = .ok trees)
    {s : Spacing} (same : s.tokens = tokens text) (fits : s.Fits) : read s.text = .ok trees := by
  obtain ⟨scans, leaves⟩ := read_eq_ok_iff.1 h
  have again : tokens s.text = tokens text :=
    Reader.tokens_of_scans (scans.respaced same fits) {} (by simp) rfl fun _ hk => hk
  refine read_eq_ok_iff.2 ⟨?_, again.trans leaves⟩
  rw [again]
  exact scans.respaced same fits

/-- The methods stay the same if the tokens of their listing are written again with other
blanks and comments before, between and after them. -/
theorem parse_respaced {text : Text} {ms : List Method} (h : parse text = .ok ms) {s : Spacing}
    (same : s.tokens = tokens text) (fits : s.Fits) : parse s.text = .ok ms := by
  obtain ⟨trees, read, loads⟩ := parse_eq_ok_iff.1 h
  exact parse_eq_ok_iff.2 ⟨trees, read_respaced read same fits, loads⟩

/-- A listing in which keywords run into what follows. -/
def gluedListing : Text :=
  lit "method\"p.A\"\"f()V\"\x7bflagspublic block 0@0->0\x7binsn IF\"#\"else0\x7d\x7d#end"

def gluedMethod : Method where
  className := lit "p.A"
  shortId := lit "f()V"
  flags := [lit "public"]
  blocks :=
    [{ successors := [0],
       instructions := [{ opcode := .branch, text := ['#'], elseTarget := some 0 }] }]
  listed := [0]

/-- A comment with a quote and a brace in it, and other ends of lines around it. -/
def noteGap : Text := ['\r', '\n', '#', ' ', '"', '}', '\n', '\t']

/-- The tokens of that listing with a comment, a blank or nothing behind them. -/
def looseSpacing : Spacing where
  front := noteGap
  spaced :=
    [(⟨.keyword .method, lit "method"⟩, noteGap), (⟨.string, lit "\"p.A\""⟩, []),
     (⟨.string, lit "\"f()V\""⟩, noteGap), (⟨.lbrace, ['{']⟩, []),
     (⟨.keyword .flags, lit "flags"⟩, noteGap), (⟨.name, lit "public"⟩, [' ']),
     (⟨.keyword .block, lit "block"⟩, [' ']), (⟨.int, ['0']⟩, noteGap), (⟨.atSign, ['@']⟩, []),
     (⟨.int, ['0']⟩, []), (⟨.arrow, ['-', '>']⟩, noteGap), (⟨.int, ['0']⟩, []),
     (⟨.lbrace, ['{']⟩, []), (⟨.keyword .insn, lit "insn"⟩, noteGap), (⟨.name, lit "IF"⟩, []),
     (⟨.string, lit "\"#\""⟩, []), (⟨.keyword .elseTo, lit "else"⟩, [' ']), (⟨.int, ['0']⟩, []),
     (⟨.rbrace, ['}']⟩, noteGap), (⟨.rbrace, ['}']⟩, [])]

theorem looseSpacing_parsed :
    parse gluedListing = .ok [gluedMethod] ∧ looseSpacing.tokens = tokens gluedListing ∧
      looseSpacing.Fits ∧ parse looseSpacing.text = .ok [gluedMethod] := by
  have parsed : parse gluedListing = .ok [gluedMethod] :=
    eq_ok_of_toOption (by decide +kernel)
  have same : looseSpacing.tokens = tokens gluedListing := by decide +kernel
  have blank : IsGap [' '] := .blank rfl .nil
  have note : IsGap noteGap :=
    .blank rfl (.blank rfl (.comment (w := [' ', '"', '}']) (by decide) (.blank rfl .nil)))
  have gaps : ∀ p ∈ looseSpacing.spaced, p.2 = [] ∨ p.2 = [' '] ∨ p.2 = noteGap := by
    decide +kernel
  have fits : looseSpacing.Fits := by
    refine ⟨note, fun p hp => ?_, by decide +kernel⟩
    rcases gaps p hp with same | same | same
    · exact same ▸ .nil
    · exact same ▸ blank
    · exact same ▸ note
  exact ⟨parsed, same, fits, parse_respaced parsed same fits⟩

end FlowGraph.Listing
