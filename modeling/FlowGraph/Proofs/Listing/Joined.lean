import FlowGraph.Proofs.Listing.Behind
import FlowGraph.Proofs.Listing.Failure
import FlowGraph.Proofs.Listing.Spacing
import FlowGraph.Proofs.Text.Position

/-!
# Listings one after another

A text that is a listing may be written on the lines before any other text.  `parse_joined`
says what the two make together: the methods of the first before those of the second, or the
error of the second, at its place further down.

The reader comes to the second text between methods, and behind the line break no comment is
open (`Reader.finish_line`).  From there on it is the reader of the second text behind the
methods of the first (`Reader.finish_behind`).
-/

namespace FlowGraph.Listing

/-! ## Errors further down -/

/-- The same fault behind another token. -/
def Fault.behind (previous : Option Token) : Fault → Fault
  | misplaced token expected p => misplaced token expected (p <|> previous)
  | unmatched c excerpt tried p => unmatched c excerpt tried (p <|> previous)
  | unusable token expected => unusable token expected
  | unfinished expected => unfinished expected

/-- The same error in a text on the line below another, behind the last token of that. -/
def SyntaxError.behind (front : Text) (previous : Option Token) (e : SyntaxError) : SyntaxError :=
  ⟨e.position.below front, e.fault.behind previous⟩

/-- The two kinds of syntax errors. -/
inductive FaultKind where
  /-- There is a token, or the end of the text, that may not stand there. -/
  | unexpectedToken
  /-- There is no token at all. -/
  | unexpectedCharacter
deriving DecidableEq, Repr

/-- The kind of a fault. -/
def Fault.kind : Fault → FaultKind
  | unusable .. => .unexpectedToken
  | unfinished _ => .unexpectedToken
  | misplaced .. => .unexpectedToken
  | unmatched .. => .unexpectedCharacter

theorem Fault.kind_behind (previous : Option Token) (f : Fault) :
    (f.behind previous).kind = f.kind := by
  cases f <;> rfl

/-! ## One token more -/

/-- How a text is read on, token by token. -/
theorem Reader.finish_eq (r : Reader) (text rest : Text) :
    r.finish text rest =
      match skip false rest with
      | [] =>
          match r.state.result? with
          | some trees => .ok trees
          | none => .error ⟨r.endPosition text, .unfinished r.expected⟩
      | c :: cs =>
          match scan r.tries (c :: cs) with
          | none => .error ⟨Text.positionOf text (c :: cs), r.unscannable text c cs⟩
          | some (token, after) =>
              match r.state.step token with
              | none => .error ⟨Text.positionOf text (c :: cs), .unusable token r.expected⟩
              | some state =>
                  finish ⟨state, r.state.juncture token.terminal, some (token, c :: cs)⟩ text
                    after := by
  rw [Reader.finish]
  split
  · next skipped => cases r.state.result? <;> simp only [skipped]
  · next skipped =>
      simp only [skipped]
      split
      · next scanned => simp only [scanned]
      · next token _ scanned =>
          cases step : r.state.step token <;> simp only [scanned, step]

section

variable {r : Reader} {rest cs after : Text} {c : Char} {token : Token} {state : State}
  (text : Text) (skipped : skip false rest = c :: cs)

include skipped

theorem Reader.finish_of_scan_none (scanned : scan r.tries (c :: cs) = none) :
    r.finish text rest
      = .error ⟨Text.positionOf text (c :: cs), r.unscannable text c cs⟩ := by
  rw [finish_eq]
  simp only [skipped, scanned]

theorem Reader.finish_of_step_none (scanned : scan r.tries (c :: cs) = some (token, after))
    (step : r.state.step token = none) :
    r.finish text rest = .error ⟨Text.positionOf text (c :: cs), .unusable token r.expected⟩ := by
  rw [finish_eq]
  simp only [skipped, scanned, step]

theorem Reader.finish_of_step (scanned : scan r.tries (c :: cs) = some (token, after))
    (step : r.state.step token = some state) :
    r.finish text rest
      = finish ⟨state, r.state.juncture token.terminal, some (token, c :: cs)⟩ text after := by
  rw [finish_eq r]
  simp only [skipped, scanned, step]

end

/-! ## Behind other methods -/

namespace Reader

/-- The reader with other methods before those it has read, and a token before its first. -/
def behind (trees : List MethodTree) (last : Option (Token × Text)) (r : Reader) : Reader :=
  ⟨r.state.behind trees, r.juncture, r.last <|> last⟩

variable (trees : List MethodTree) (last : Option (Token × Text)) (r : Reader)

theorem tries_behind : (r.behind trees last).tries = r.tries := r.state.lexable_behind trees _

theorem named_behind : (r.behind trees last).named = r.named := by
  unfold named
  rw [tries_behind]

theorem expected_behind : (r.behind trees last).expected = r.expected := by
  simp [expected, behind, State.accepts_behind, State.result?_behind]

theorem previous_behind :
    (r.behind trees last).previous = (r.previous <|> last.map Prod.fst) := by
  unfold previous behind
  cases r.last <;> rfl

theorem unscannable_behind (front : Text) {text : Text} {c : Char} {cs : Text}
    (h : c :: cs <:+ text) :
    (r.behind trees last).unscannable (front ++ '\n' :: text) c cs
      = (r.unscannable text c cs).behind (last.map Prod.fst) := by
  unfold unscannable
  rw [expected_behind, previous_behind, named_behind, Text.excerpt_below front h]
  split <;> rfl

theorem endPosition_behind (front : Text) {text mark rest : Text} {before : List Token}
    (h : r.Follows text before mark rest) (result : r.state.result? = none) :
    (r.behind trees last).endPosition (front ++ '\n' :: text)
      = (r.endPosition text).below front := by
  obtain ⟨t, marked⟩ := h.exists_last result
  unfold endPosition behind
  rw [marked]
  exact Text.positionOf_below front h.reads.suffix.1

/-- What follows on the line below other text is read behind the methods of that text as it
is read on its own.  The induction is on what is left to read. -/
theorem finish_behind (front : Text) {text mark rest : Text} {before : List Token}
    (h : r.Follows text before mark rest) :
    (r.behind trees last).finish (front ++ '\n' :: text) rest
      = ((r.finish text rest).map (trees ++ ·)).mapError
          (SyntaxError.behind front (last.map Prod.fst)) := by
  fun_induction Reader.finish r text rest generalizing before mark with
  | case1 r rest skipped trees' result =>
      have result' : (r.behind trees last).state.result? = some (trees ++ trees') := by
        rw [behind, State.result?_behind, result]
        rfl
      rw [finish_eq]
      simp only [skipped, result']
      rfl
  | case2 r rest skipped result =>
      have result' : (r.behind trees last).state.result? = none := by
        rw [behind, State.result?_behind, result]
        rfl
      rw [finish_eq]
      simp only [skipped, result', expected_behind,
        endPosition_behind trees last r front h result]
      rfl
  | case3 r rest c cs skipped scanned =>
      have suffix : c :: cs <:+ text :=
        (skipped ▸ (ignored_skip rest).1.suffix).trans h.reads.suffix.2
      rw [← tries_behind trees last] at scanned
      rw [finish_of_scan_none _ skipped scanned, Text.positionOf_below front suffix,
        unscannable_behind trees last r front suffix]
      rfl
  | case4 r rest c cs skipped tok after scanned step =>
      have suffix : c :: cs <:+ text :=
        (skipped ▸ (ignored_skip rest).1.suffix).trans h.reads.suffix.2
      have step' : (r.behind trees last).state.step tok = none := by
        rw [behind, State.step_behind, step]
        rfl
      rw [← tries_behind trees last] at scanned
      rw [finish_of_step_none _ skipped scanned step', Text.positionOf_below front suffix,
        expected_behind]
      rfl
  | case5 r rest c cs skipped tok after scanned state step ih =>
      have follows := h.next (skipped ▸ (ignored_skip rest).1) scanned step
      have step' : (r.behind trees last).state.step tok = some (state.behind trees) := by
        rw [behind, State.step_behind, step]
        rfl
      rw [← tries_behind trees last] at scanned
      rw [← ih follows, finish_of_step _ skipped scanned step', behind, State.juncture_behind]
      rfl

end Reader

/-! ## Up to the next line -/

/-- Blanks and comments that end a text end before the next line. -/
theorem skip_line_of_nil {inComment : Bool} {t : Text} (h : skip inComment t = []) (next : Text) :
    skip inComment (t ++ '\n' :: next) = skip false next := by
  fun_induction skip inComment t with
  | case1 inComment => cases inComment <;> rfl
  | case2 t ih => exact ih h
  | case3 c t other ih => rw [List.cons_append, skip, if_neg other, ih h]
  | case4 c t blank ih => rw [List.cons_append, skip, if_pos blank, ih h]
  | case5 t _ ih => exact ih h
  | case6 c t => cases h

theorem skip_line_of_cons {inComment : Bool} {t cs : Text} {c : Char}
    (h : skip inComment t = c :: cs) (more : Text) :
    skip inComment (t ++ more) = c :: cs ++ more := by
  fun_induction skip inComment t with
  | case1 inComment => cases h
  | case2 t ih => exact ih h
  | case3 c t other ih => rw [List.cons_append, skip, if_neg other, ih h]
  | case4 c t blank ih => rw [List.cons_append, skip, if_pos blank, ih h]
  | case5 t _ ih => exact ih h
  | case6 c t blank comment =>
      cases h
      rw [List.cons_append, skip, if_neg blank, if_neg comment]

theorem StopsAt.line {p : Char → Bool} {t : Text} (h : StopsAt p t) (feed : p '\n' = false)
    (next : Text) : StopsAt p (t ++ '\n' :: next) := by
  cases t with
  | nil =>
      rintro c ⟨⟩
      exact feed
  | cons c t => exact h

/-- A token does not go on behind a line break. -/
theorem Matches.line {allowed : Terminal → Prop} {text rest : Text} {tok : Token}
    (h : Matches allowed text tok rest) (next : Text) :
    Matches allowed (text ++ '\n' :: next) tok (rest ++ '\n' :: next) := by
  cases h with
  | @string body rest allows isBody =>
      have whole : '"' :: body ++ '"' :: rest ++ '\n' :: next
          = '"' :: body ++ '"' :: (rest ++ '\n' :: next) := by simp
      rw [whole]
      exact .string allows isBody
  | int allows numeral stops =>
      rw [List.append_assoc]
      exact .int allows numeral (stops.line (by decide) next)
  | name allows isWord stops none =>
      rw [List.append_assoc]
      exact .name allows isWord (stops.line (by decide) next) none
  | word allows hk stops =>
      rw [List.append_assoc]
      exact .word allows hk (stops.line (by decide) next)
  | front names hk =>
      rw [List.append_assoc]
      exact .front names hk
  | sign hs allows =>
      rw [List.append_assoc]
      exact .sign hs allows

/-- The end of a method leaves no juncture behind. -/
theorem State.juncture_eq_plain {s s' : State} {t : Token} (h : s.step t = some s')
    (ends : s'.result?.isSome = true) : s.juncture t.terminal = .plain := by
  obtain ⟨k, w⟩ := t
  cases s with
  | regionBody site line before =>
      cases k with
      | rbrace =>
          cases h
          cases site <;> cases ends
      | _ => rfl
  | listOpen site =>
      cases k with
      | rsqb =>
          cases h
          cases site <;> cases ends
      | _ => rfl
  | listString site first more =>
      cases k with
      | rsqb =>
          cases h
          cases site <;> cases ends
      | _ => rfl
  | argsComma m first more =>
      cases k with
      | string =>
          cases h
          cases ends
      | _ => rfl
  | listComma site first more =>
      cases k with
      | string =>
          cases h
          cases ends
      | _ => rfl
  | _ => rfl

namespace Reader

/-- The reader in a text that goes on. -/
def ahead (more : Text) (r : Reader) : Reader :=
  ⟨r.state, r.juncture, r.last.map fun p => (p.1, p.2 ++ more)⟩

theorem previous_ahead (more : Text) (r : Reader) : (r.ahead more).previous = r.previous := by
  unfold previous ahead
  cases r.last <;> rfl

theorem finish_of_skip_eq (r : Reader) (text : Text) {rest rest' : Text}
    (h : skip false rest = skip false rest') : r.finish text rest = r.finish text rest' := by
  rw [finish_eq, h, ← finish_eq]

/-- A reader that comes to the end of a listing, in a text that goes on on the next line, is
there behind the methods of the listing and behind its last token. -/
theorem finish_line {r : Reader} {text rest : Text} {trees : List MethodTree}
    (h : r.finish text rest = .ok trees)
    (settled : r.state.result?.isSome = true → r.juncture = .plain) (whole next : Text) :
    ∃ last, last.map Prod.fst = ((r.tokens rest).getLast? <|> r.previous) ∧
      (r.ahead ('\n' :: next)).finish whole (rest ++ '\n' :: next)
        = (Reader.behind trees last {}).finish whole next := by
  fun_induction Reader.finish r text rest with
  | case1 r rest skipped trees' result =>
      cases h
      have state : r.state = .top trees := State.eq_top_of_result result
      have plain : r.juncture = .plain := settled (by rw [result]; rfl)
      have here : r.ahead ('\n' :: next)
          = Reader.behind trees (r.ahead ('\n' :: next)).last {} := by
        simp [ahead, behind, state, plain, State.behind]
      refine ⟨(r.ahead ('\n' :: next)).last, ?_, ?_⟩
      · rw [tokens_of_skip_nil r skipped]
        exact previous_ahead _ r
      · rw [← here]
        exact finish_of_skip_eq _ whole (skip_line_of_nil skipped next)
  | case2 r rest skipped result => cases h
  | case3 r rest c cs skipped scanned => cases h
  | case4 r rest c cs skipped tok after scanned step => cases h
  | case5 r rest c cs skipped tok after scanned state step ih =>
      obtain ⟨last, token, further⟩ := ih h (State.juncture_eq_plain step)
      have skipped' := skip_line_of_cons skipped ('\n' :: next)
      have scanned' : scan (r.ahead ('\n' :: next)).tries (c :: cs ++ '\n' :: next)
          = some (tok, after ++ '\n' :: next) :=
        scan_eq_some_iff.2 ((scan_eq_some_iff.1 scanned).line next)
      refine ⟨last, ?_, ?_⟩
      · rw [token, tokens_of_skip_cons r skipped scanned step, List.getLast?_cons]
        cases (tokens _ after).getLast? <;> rfl
      · rw [← further, finish_of_step whole skipped' scanned' step]
        rfl

end Reader

/-! ## Two texts -/

/-- A text on the lines below a listing is read as on its own, behind the methods of the
listing. -/
theorem read_joined {front : Text} {trees : List MethodTree} (h : read front = .ok trees)
    (text : Text) :
    read (front ++ '\n' :: text)
      = ((read text).map (trees ++ ·)).mapError
          (SyntaxError.behind front (tokens front).getLast?) := by
  obtain ⟨last, token, further⟩ := Reader.finish_line h (fun _ => rfl) (front ++ '\n' :: text) text
  have previous : last.map Prod.fst = (tokens front).getLast? := by
    rw [token]
    show ((tokens front).getLast? <|> none) = _
    cases (tokens front).getLast? <;> rfl
  rw [← previous]
  exact further.trans (Reader.finish_behind trees last {} front (.initial text))

theorem collect_append {α β : Type} {f : α → Except LoadError β} {as : List α} {bs : List β}
    (h : collect f as = .ok bs) (more : List α) :
    collect f (as ++ more) = (collect f more).map (bs ++ ·) := by
  induction as generalizing bs with
  | nil =>
      cases h
      rw [List.nil_append]
      cases collect f more <;> rfl
  | cons a as ih =>
      simp only [collect, bind_eq_ok_iff] at h
      obtain ⟨b, value, bs, values, ⟨⟩⟩ := h
      rw [List.cons_append, collect, value, ih values]
      cases collect f more <;> rfl

/-- The same error of a text on the line below another, behind the last token of that. -/
def ListingError.behind (front : Text) (previous : Option Token) : ListingError → ListingError
  | malformed e => malformed (e.behind front previous)
  | senseless e => senseless e

theorem parse_line {front : Text} {ms : List Method} (h : parse front = .ok ms) (text : Text) :
    parse (front ++ '\n' :: text)
      = ((parse text).map (ms ++ ·)).mapError
          (ListingError.behind front (tokens front).getLast?) := by
  obtain ⟨trees, readable, each⟩ := parse_eq_ok_iff.1 h
  have loads : load trees = .ok ms := collect_eq_ok_iff.2 each
  have loads' (more : List MethodTree) : load (trees ++ more) = (load more).map (ms ++ ·) :=
    collect_append loads more
  unfold parse
  rw [read_joined readable]
  cases read text with
  | error e => rfl
  | ok more =>
      simp only [Except.map, Except.mapError, loads']
      cases load more <;> rfl

/-- Whether a syntax error is that of a text which stands on the line below another. -/
structure SyntaxError.IsBelow (e' : SyntaxError) (front : Text) (e : SyntaxError) : Prop where
  /-- The kind is the same. -/
  kind_eq : e'.fault.kind = e.fault.kind
  /-- The index moves by the characters of the other text and the line break. -/
  index_eq : e'.position.index = e.position.index + (front.length + 1)
  /-- The line moves by the lines of the other text. -/
  line_eq : e'.position.line = e.position.line + (front.count '\n' + 1)
  /-- The column stays. -/
  column_eq : e'.position.column = e.position.column
  /-- So does the fault, but that it may name the last token of the other text. -/
  fault_eq : e'.fault = e.fault.behind (tokens front).getLast?

theorem SyntaxError.isBelow_behind (front : Text) (e : SyntaxError) :
    (e.behind front (tokens front).getLast?).IsBelow front e where
  kind_eq := e.fault.kind_behind _
  index_eq := rfl
  line_eq := rfl
  column_eq := rfl
  fault_eq := rfl

/-- A listing and a text on the lines below it give the methods of the first before those of
the second.  They fail just if the second text does: with the same error if a method makes no
sense, and with an error of the same kind further down if the text is no listing. -/
theorem parse_joined {front : Text} {ms : List Method} (h : parse front = .ok ms) (text : Text) :
    (∀ all, parse (front ++ '\n' :: text) = .ok all ↔
      ∃ more, parse text = .ok more ∧ all = ms ++ more) ∧
    (∀ e, parse (front ++ '\n' :: text) = .error (.senseless e) ↔
      parse text = .error (.senseless e)) ∧
    (∀ e, parse text = .error (.malformed e) →
      ∃ e', parse (front ++ '\n' :: text) = .error (.malformed e') ∧ e'.IsBelow front e) := by
  rw [parse_line h text]
  cases parse text with
  | ok more => simp [Except.map, Except.mapError, eq_comm]
  | error e =>
      cases e with
      | senseless e => simp [Except.map, Except.mapError, ListingError.behind]
      | malformed e =>
          refine ⟨by simp [Except.map, Except.mapError], ?_, ?_⟩
          · simp [Except.map, Except.mapError, ListingError.behind]
          · rintro e' ⟨⟩
            exact ⟨_, rfl, e.isBelow_behind front⟩

/-- A listing that ends within a comment. -/
def notedListing : Text := lit "method \"p.A\" \"f()V\" \x7b nocode \x7d # method"

def notedMethod : Method where
  className := lit "p.A"
  shortId := lit "f()V"
  noCode := true

/-- A text with a brace in place of a method. -/
def strayText : Text := lit "# end\n \x7d"

/-- The error of that text, which has no token before the brace. -/
def strayError : SyntaxError :=
  ⟨⟨7, 2, 2⟩, .misplaced ⟨.rbrace, ['}']⟩ ⟨[.keyword .method], true⟩ none⟩

theorem notedListing_joined :
    parse notedListing = .ok [notedMethod] ∧
      parse strayText = .error (.malformed strayError) ∧
      ∃ e, parse (notedListing ++ '\n' :: strayText) = .error (.malformed e) ∧
        e.IsBelow notedListing strayError := by
  have parsed : parse notedListing = .ok [notedMethod] := eq_ok_of_toOption (by decide +kernel)
  have failed : parse strayText = .error (.malformed strayError) :=
    eq_error_of_failure? (by decide +kernel)
  exact ⟨parsed, failed, (parse_joined parsed strayText).2.2 _ failed⟩

end FlowGraph.Listing
