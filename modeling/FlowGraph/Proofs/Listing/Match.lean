import FlowGraph.Listing.Scan
import FlowGraph.Proofs.Listing.Grammar

/-!
# Tokens in a text

`Matches allowed text tok rest` says what it is for a token of an allowed terminal to
stand at the start of a text, by the form of the token and of what follows it.  `scan`
finds exactly these tokens (`scan_eq_some_iff`), so there is at most one.

`Ignored text rest` says the same for the blanks and comments before a token, which `skip`
leaves out (`skip_eq_of_ignored`).
-/

namespace FlowGraph.Listing

/-! ## The form of tokens -/

/-- What may stand between the quotes of a string: backslashes come with the character
behind them, and no quote stands without one. -/
inductive IsStringBody : Text → Prop
  | nil : IsStringBody []
  | plain {c : Char} {t : Text} : c ≠ '"' → c ≠ '\\' → c ≠ '\n' → IsStringBody t →
      IsStringBody (c :: t)
  | escaped {c : Char} {t : Text} : c ≠ '\n' → IsStringBody t → IsStringBody ('\\' :: c :: t)

/-- A word: letters, digits and underscores, of which the first is no digit. -/
def IsWord (w : Text) : Prop :=
  ∃ c t, w = c :: t ∧ isNameStart c = true ∧ ∀ d ∈ t, isNameChar d = true

/-- Digits of a number. -/
def IsNumeral (ds : Text) : Prop := ds ≠ [] ∧ ∀ c ∈ ds, c.isDigit = true

/-- Whether a text does not go on with a character of a kind. -/
def StopsAt (p : Char → Bool) (t : Text) : Prop := ∀ c ∈ t.head?, p c = false

/-- A token of an allowed terminal at the start of a text, and the text after it. -/
inductive Matches (allowed : Terminal → Prop) : Text → Token → Text → Prop
  | string {body rest : Text} : allowed .string → IsStringBody body →
      Matches allowed ('"' :: body ++ '"' :: rest) ⟨.string, '"' :: body ++ ['"']⟩ rest
  | int {ds rest : Text} : allowed .int → IsNumeral ds → StopsAt Char.isDigit rest →
      Matches allowed (ds ++ rest) ⟨.int, ds⟩ rest
  | name {w rest : Text} : allowed .name → IsWord w → StopsAt isNameChar rest →
      (∀ k : Keyword, k.word = w → ¬ allowed (.keyword k)) →
      Matches allowed (w ++ rest) ⟨.name, w⟩ rest
  | word {k : Keyword} {rest : Text} : allowed .name → allowed (.keyword k) →
      StopsAt isNameChar rest → Matches allowed (k.word ++ rest) ⟨.keyword k, k.word⟩ rest
  | front {k : Keyword} {rest : Text} : ¬ allowed .name → allowed (.keyword k) →
      Matches allowed (k.word ++ rest) ⟨.keyword k, k.word⟩ rest
  | sign {s : Terminal × Text} {rest : Text} : s ∈ Terminal.signs → allowed s.1 →
      Matches allowed (s.2 ++ rest) ⟨s.1, s.2⟩ rest

/-! ## Lists -/

section Lists

variable {α : Type} {p : α → Bool}

theorem find?_eq_some_of_unique {a : α} {as : List α} (ha : a ∈ as) (hp : p a = true)
    (unique : ∀ b, p b = true → b = a) : as.find? p = some a := by
  obtain ⟨b, hb⟩ := Option.isSome_iff_exists.1 (List.find?_isSome.2 ⟨a, ha, hp⟩)
  rw [hb, unique b (List.find?_some hb)]

end Lists

section Stops

variable {p : Char → Bool} {w rest : Text}

theorem StopsAt.takeWhile (h : StopsAt p rest) : rest.takeWhile p = [] := by
  cases rest with
  | nil => rfl
  | cons c rest => exact List.takeWhile_cons_of_neg (by simp [h c rfl])

theorem StopsAt.dropWhile (h : StopsAt p rest) : rest.dropWhile p = rest := by
  cases rest with
  | nil => rfl
  | cons c rest => exact List.dropWhile_cons_of_neg (by simp [h c rfl])

theorem takeWhile_append_of_stopsAt (hw : ∀ c ∈ w, p c = true) (h : StopsAt p rest) :
    (w ++ rest).takeWhile p = w := by
  rw [List.takeWhile_append_of_pos hw, h.takeWhile, List.append_nil]

theorem dropWhile_append_of_stopsAt (hw : ∀ c ∈ w, p c = true) (h : StopsAt p rest) :
    (w ++ rest).dropWhile p = rest := by
  rw [List.dropWhile_append_of_pos hw, h.dropWhile]

theorem stopsAt_dropWhile (p : Char → Bool) (t : Text) : StopsAt p (t.dropWhile p) := by
  intro c hc
  have not := List.head?_dropWhile_not p t
  rw [Option.mem_def.1 hc] at not
  simpa using not

theorem mem_takeWhile {t : Text} {c : Char} (h : c ∈ t.takeWhile p) : p c = true :=
  List.all_eq_true.1 List.all_takeWhile c h

end Stops

/-! ## Strings -/

theorem scanBody_append {body : Text} (h : IsStringBody body) (rest : Text) :
    scanBody false (body ++ '"' :: rest) = some (body, rest) := by
  induction h with
  | nil => rfl
  | plain hq hb hn _ ih => simp [scanBody, hq, hb, hn, ih]
  | escaped hn _ ih => simp [scanBody, hn, ih]

/-- The two flags go together: behind an odd number of backslashes the next character
belongs to the last of them. -/
theorem scanBody_sound (t : Text) :
    (∀ {body rest}, scanBody false t = some (body, rest) →
      IsStringBody body ∧ t = body ++ '"' :: rest) ∧
    (∀ {body rest}, scanBody true t = some (body, rest) →
      IsStringBody ('\\' :: body) ∧ t = body ++ '"' :: rest) := by
  induction t with
  | nil =>
      constructor
      · intro body rest h
        cases h
      · intro body rest h
        cases h
  | cons c t ih =>
      obtain ⟨even, odd⟩ := ih
      constructor
      · intro body rest h
        rw [scanBody] at h
        by_cases hn : c = '\n'
        · simp [hn] at h
        by_cases hq : c = '"'
        · rw [if_neg hn, if_pos (by simp [hq])] at h
          cases h
          exact ⟨.nil, by rw [hq]; rfl⟩
        simp only [hn, hq, if_false, decide_false, Bool.false_and, Bool.false_eq_true] at h
        obtain ⟨⟨b, r⟩, scanned, same⟩ := Option.map_eq_some_iff.1 h
        cases same
        by_cases hb : c = '\\'
        · simp only [hb, decide_true, Bool.not_false, Bool.and_self] at scanned
          obtain ⟨isBody, rfl⟩ := odd scanned
          exact ⟨hb ▸ isBody, rfl⟩
        · simp only [hb, decide_false, Bool.false_and] at scanned
          obtain ⟨isBody, rfl⟩ := even scanned
          exact ⟨.plain hq hb hn isBody, rfl⟩
      · intro body rest h
        rw [scanBody] at h
        by_cases hn : c = '\n'
        · simp [hn] at h
        simp only [hn, if_false, Bool.not_true, Bool.and_false, Bool.false_eq_true] at h
        obtain ⟨⟨b, r⟩, scanned, same⟩ := Option.map_eq_some_iff.1 h
        cases same
        obtain ⟨isBody, rfl⟩ := even scanned
        exact ⟨.escaped hn isBody, rfl⟩

/-- The scanner finds the body of a string, which is unique. -/
theorem scanBody_eq_some_iff {t body rest : Text} :
    scanBody false t = some (body, rest) ↔ IsStringBody body ∧ t = body ++ '"' :: rest := by
  constructor
  · intro h
    exact (scanBody_sound t).1 h
  · rintro ⟨isBody, rfl⟩
    exact scanBody_append isBody rest

/-! ## Words and signs -/

theorem not_isDigit_of_isNameStart {c : Char} (h : isNameStart c = true) : c.isDigit = false := by
  rw [Bool.eq_false_iff]
  intro digit
  have ends : 48 ≤ c.toNat ∧ c.toNat ≤ 57 := by
    simpa [Char.isDigit, UInt32.le_iff_toNat_le] using digit
  rcases Bool.or_eq_true_iff.1 h with alpha | underscore
  · rcases Bool.or_eq_true_iff.1 alpha with upper | lower
    · have first : 65 ≤ c.toNat := (of_decide_eq_true upper).1
      omega
    · have first : 97 ≤ c.toNat := of_decide_eq_true (Bool.and_eq_true_iff.1 lower).1
      omega
  · cases of_decide_eq_true underscore
    exact absurd digit (by decide)

theorem isWord_iff {w : Text} :
    IsWord w ↔ w.head?.any isNameStart = true ∧ w.all isNameChar = true := by
  cases w with
  | nil =>
      constructor
      · rintro ⟨c, t, h, -⟩
        cases h
      · intro h
        exact absurd h.1 (by decide)
  | cons c t =>
      constructor
      · rintro ⟨_, _, ⟨⟩, start, chars⟩
        refine ⟨start, List.all_eq_true.2 (List.forall_mem_cons.2 ⟨?_, chars⟩)⟩
        exact isNameChar_of_isNameStart start
      · intro h
        exact ⟨c, t, rfl, h.1, fun d hd => List.all_eq_true.1 h.2 d (List.mem_cons_of_mem c hd)⟩

instance (w : Text) : Decidable (IsWord w) := decidable_of_iff _ isWord_iff.symm

theorem isWord_word (k : Keyword) : IsWord k.word := by
  have all : ∀ k ∈ Keyword.all, IsWord k.word := by decide +kernel
  exact all k (Keyword.mem_all k)

/-- No keyword is the front of another. -/
theorem word_prefix_free {j k : Keyword} (h : j.word <+: k.word) : j = k := by
  have all : ∀ j ∈ Keyword.all, ∀ k ∈ Keyword.all, j.word.isPrefixOf k.word = true → j = k := by
    decide +kernel
  exact all j (Keyword.mem_all j) k (Keyword.mem_all k) (List.isPrefixOf_iff_prefix.2 h)

/-- No sign is the front of another. -/
theorem sign_prefix_free : ∀ r ∈ Terminal.signs, ∀ s ∈ Terminal.signs, r.2 <+: s.2 → r = s := by
  decide

theorem IsWord.forall_isNameChar {w : Text} (h : IsWord w) : ∀ c ∈ w, isNameChar c = true := by
  obtain ⟨c, t, rfl, start, chars⟩ := h
  exact List.forall_mem_cons.2 ⟨isNameChar_of_isNameStart start, chars⟩

section Words

variable {allowed : Terminal → Bool}

/-- What a whole word is read as. -/
theorem wordTerminal_cases (allowed : Terminal → Bool) (w : Text) :
    (∃ k : Keyword, k.word = w ∧ allowed (.keyword k) = true
      ∧ wordTerminal allowed w = .keyword k) ∨
    ((∀ k : Keyword, k.word = w → ¬ allowed (.keyword k) = true)
      ∧ wordTerminal allowed w = .name) := by
  unfold wordTerminal
  split
  · next k found =>
      have hk := List.find?_some found
      rw [Bool.and_eq_true, decide_eq_true_eq] at hk
      exact Or.inl ⟨k, hk.1, hk.2, rfl⟩
  · next found =>
      refine Or.inr ⟨fun k hw hk => ?_, rfl⟩
      refine List.find?_eq_none.1 found k (Keyword.mem_all k) ?_
      rw [Bool.and_eq_true, decide_eq_true_eq]
      exact ⟨hw, hk⟩

theorem scanWord_whole {w rest : Text} (hn : allowed .name = true) (hw : IsWord w)
    (hr : StopsAt isNameChar rest) :
    scanWord allowed (w ++ rest) = some (⟨wordTerminal allowed w, w⟩, rest) := by
  unfold scanWord
  rw [if_pos hn]
  dsimp only
  rw [takeWhile_append_of_stopsAt hw.forall_isNameChar hr,
    dropWhile_append_of_stopsAt hw.forall_isNameChar hr]

theorem scanWord_front {k : Keyword} {rest : Text} (hn : ¬ allowed .name = true)
    (hk : allowed (.keyword k) = true) :
    scanWord allowed (k.word ++ rest) = some (⟨.keyword k, k.word⟩, rest) := by
  have found : Keyword.all.find?
      (fun j => allowed (.keyword j) && j.word.isPrefixOf (k.word ++ rest)) = some k := by
    refine find?_eq_some_of_unique (Keyword.mem_all k) ?_ fun j hj => ?_
    · simp [hk]
    · rw [Bool.and_eq_true, List.isPrefixOf_iff_prefix] at hj
      rcases List.prefix_or_prefix_of_prefix hj.2 (List.prefix_append k.word rest) with h | h
      · exact word_prefix_free h
      · exact (word_prefix_free h).symm
  unfold scanWord scanKeyword
  rw [if_neg hn, found]
  simp

theorem matches_of_scanWord {c : Char} {t rest : Text} {tok : Token} (hc : isNameStart c = true)
    (h : scanWord allowed (c :: t) = some (tok, rest)) :
    Matches (fun k => allowed k = true) (c :: t) tok rest := by
  unfold scanWord at h
  split at h
  · next hn =>
      cases h
      have whole := List.takeWhile_append_dropWhile (p := isNameChar) (l := c :: t)
      have stops := stopsAt_dropWhile isNameChar (c :: t)
      have isWord : IsWord ((c :: t).takeWhile isNameChar) := by
        rw [List.takeWhile_cons_of_pos (isNameChar_of_isNameStart hc)]
        exact ⟨c, _, rfl, hc, fun d hd => mem_takeWhile hd⟩
      generalize (c :: t).takeWhile isNameChar = w at *
      generalize (c :: t).dropWhile isNameChar = rest at *
      rw [← whole]
      obtain ⟨k, rfl, hk, same⟩ | ⟨none, same⟩ := wordTerminal_cases allowed w
      · rw [same]
        exact .word hn hk stops
      · rw [same]
        exact .name hn isWord stops none
  · next hn =>
      unfold scanKeyword at h
      obtain ⟨k, found, same⟩ := Option.map_eq_some_iff.1 h
      cases same
      have hk := List.find?_some found
      rw [Bool.and_eq_true, List.isPrefixOf_iff_prefix] at hk
      obtain ⟨allowed, rest, whole⟩ := hk
      rw [← whole, List.drop_left]
      exact .front hn allowed

/-! ## Signs -/

theorem scanSign_front {s : Terminal × Text} {rest : Text} (hs : s ∈ Terminal.signs)
    (allows : allowed s.1 = true) :
    scanSign allowed (s.2 ++ rest) = some (⟨s.1, s.2⟩, rest) := by
  have found : Terminal.signs.find? (fun r => allowed r.1 && r.2.isPrefixOf (s.2 ++ rest))
      = some s := by
    obtain ⟨r, hr⟩ : ∃ r, Terminal.signs.find?
        (fun r => allowed r.1 && r.2.isPrefixOf (s.2 ++ rest)) = some r :=
      Option.isSome_iff_exists.1 (List.find?_isSome.2 ⟨s, hs, by simp [allows]⟩)
    have mem := List.mem_of_find?_eq_some hr
    have hp := List.find?_some hr
    rw [Bool.and_eq_true, List.isPrefixOf_iff_prefix] at hp
    rw [hr]
    rcases List.prefix_or_prefix_of_prefix hp.2 (List.prefix_append s.2 rest) with h | h
    · rw [sign_prefix_free r mem s hs h]
    · rw [sign_prefix_free s hs r mem h]
  unfold scanSign
  rw [found]
  simp

theorem matches_of_scanSign {t rest : Text} {tok : Token}
    (h : scanSign allowed t = some (tok, rest)) :
    Matches (fun k => allowed k = true) t tok rest := by
  unfold scanSign at h
  obtain ⟨s, found, same⟩ := Option.map_eq_some_iff.1 h
  cases same
  have hs := List.find?_some found
  rw [Bool.and_eq_true, List.isPrefixOf_iff_prefix] at hs
  obtain ⟨allows, rest, whole⟩ := hs
  rw [← whole, List.drop_left]
  exact .sign (List.mem_of_find?_eq_some found) allows

/-! ## The scanner -/

theorem scan_eq_scanWord {c : Char} {t : Text} (h : isNameStart c = true) :
    scan allowed (c :: t) = scanWord allowed (c :: t) := by
  have quote : c ≠ '"' := by
    rintro rfl
    exact absurd h (by decide)
  rw [scan, if_neg quote, if_neg (by simp [not_isDigit_of_isNameStart h]), if_pos h]

theorem scan_word {w : Text} (hw : IsWord w) (rest : Text) :
    scan allowed (w ++ rest) = scanWord allowed (w ++ rest) := by
  obtain ⟨c, t, rfl, start, -⟩ := hw
  exact scan_eq_scanWord start

theorem scan_sign {s : Terminal × Text} (hs : s ∈ Terminal.signs) (rest : Text) :
    scan allowed (s.2 ++ rest) = scanSign allowed (s.2 ++ rest) := by
  have form : ∀ s ∈ Terminal.signs, s.2.head?.any
      (fun c => c ≠ '"' && !c.isDigit && !isNameStart c) = true := by decide
  obtain ⟨c, t, hw⟩ := List.exists_cons_of_ne_nil (sign_ne_nil s hs)
  have hc := form s hs
  rw [hw] at hc ⊢
  simp only [List.head?_cons, Option.any_some, Bool.and_eq_true, decide_eq_true_eq,
    Bool.not_eq_true'] at hc
  obtain ⟨⟨quote, digit⟩, start⟩ := hc
  rw [List.cons_append, scan, if_neg quote, if_neg (by simp [digit]), if_neg (by simp [start])]

/-- The scanner finds the token at the start of a text, if there is one. -/
theorem scan_eq_some_iff {text rest : Text} {tok : Token} :
    scan allowed text = some (tok, rest) ↔
      Matches (fun k => allowed k = true) text tok rest := by
  constructor
  · intro h
    cases text with
    | nil => cases h
    | cons c t =>
        rw [scan] at h
        split at h
        · next hc =>
            split at h
            · next allows =>
                obtain ⟨⟨body, r⟩, scanned, same⟩ := Option.map_eq_some_iff.1 h
                cases same
                obtain ⟨isBody, rfl⟩ := scanBody_eq_some_iff.1 scanned
                rw [hc]
                exact .string allows isBody
            · cases h
        · split at h
          · next digit =>
              split at h
              · next allows =>
                  cases h
                  have whole := List.takeWhile_append_dropWhile (p := Char.isDigit) (l := c :: t)
                  have numeral : IsNumeral ((c :: t).takeWhile Char.isDigit) := by
                    refine ⟨?_, fun d hd => mem_takeWhile hd⟩
                    rw [List.takeWhile_cons_of_pos digit]
                    exact List.cons_ne_nil _ _
                  have isInt : Matches (fun k => allowed k = true) (_ ++ _) _ _ :=
                    .int allows numeral (stopsAt_dropWhile Char.isDigit (c :: t))
                  rwa [whole] at isInt
              · cases h
          · split at h
            · next start => exact matches_of_scanWord start h
            · exact matches_of_scanSign h
  · intro h
    cases h with
    | string allows isBody => simp [scan, allows, scanBody_append isBody]
    | @int ds rest allows numeral stops =>
        obtain ⟨c, t, rfl⟩ := List.exists_cons_of_ne_nil numeral.1
        have digit := numeral.2 c List.mem_cons_self
        have quote : c ≠ '"' := by
          rintro rfl
          exact absurd digit (by decide)
        rw [List.cons_append, scan, if_neg quote, if_pos digit, if_pos allows, ← List.cons_append,
          takeWhile_append_of_stopsAt numeral.2 stops, dropWhile_append_of_stopsAt numeral.2 stops]
    | @name w rest allows isWord stops none =>
        rw [scan_word isWord, scanWord_whole allows isWord stops]
        obtain ⟨k, same, hk, -⟩ | ⟨-, same⟩ := wordTerminal_cases allowed w
        · exact absurd hk (none k same)
        · rw [same]
    | @word k rest allows hk stops =>
        rw [scan_word (isWord_word k), scanWord_whole allows (isWord_word k) stops]
        obtain ⟨j, same, -, terminal⟩ | ⟨none, -⟩ := wordTerminal_cases allowed k.word
        · have eq : j = k := word_prefix_free ⟨[], by rw [same, List.append_nil]⟩
          rw [terminal, eq]
        · exact absurd hk (none k rfl)
    | @front k rest hn hk => rw [scan_word (isWord_word k), scanWord_front hn hk]
    | sign hs allows => rw [scan_sign hs, scanSign_front hs allows]

end Words

/-- The token at the start of a text is of an allowed terminal and has the text of its
terminal. -/
theorem Matches.allowed {allowed : Terminal → Prop} {text rest : Text} {tok : Token}
    (h : Matches allowed text tok rest) : allowed tok.terminal := by
  cases h <;> assumption

theorem Matches.isSpelled {allowed : Terminal → Prop} {text rest : Text} {tok : Token}
    (h : Matches allowed text tok rest) : tok.IsSpelled := by
  cases h with
  | sign hs _ =>
      have all : ∀ s ∈ Terminal.signs, s.1.text? = some s.2 := by decide
      intro w hw
      exact Option.some.inj ((all _ hs).symm.trans hw)
  | word | front =>
      intro w hw
      exact Option.some.inj hw
  | string | int | name =>
      intro w hw
      cases hw

theorem Matches.ne_nil {allowed : Terminal → Prop} {text rest : Text} {tok : Token}
    (h : Matches allowed text tok rest) : text ≠ [] := by
  intro eq
  cases h with
  | string _ _ => cases eq
  | int _ numeral _ => exact numeral.1 (List.append_eq_nil_iff.1 eq).1
  | name _ isWord _ _ =>
      obtain ⟨c, t, rfl, -, -⟩ := isWord
      cases eq
  | word _ _ _ => exact word_ne_nil _ (List.append_eq_nil_iff.1 eq).1
  | front _ _ => exact word_ne_nil _ (List.append_eq_nil_iff.1 eq).1
  | sign hs _ => exact sign_ne_nil _ hs (List.append_eq_nil_iff.1 eq).1

/-- There is at most one token at the start of a text. -/
theorem Matches.functional {allowed : Terminal → Prop} {text rest rest' : Text} {tok tok' : Token}
    (h : Matches allowed text tok rest) (h' : Matches allowed text tok' rest') :
    tok = tok' ∧ rest = rest' := by
  classical
  have same : allowed = fun k => (decide (allowed k) : Bool) = true := by simp
  rw [same] at h h'
  have eq := (scan_eq_some_iff.2 h).symm.trans (scan_eq_some_iff.2 h')
  injection eq with eq
  exact Prod.mk.inj eq

/-! ## Blanks and comments -/

/-- Blanks and comments at the start of a text, and the text after them.  A comment ends
where its line does. -/
inductive Ignored : Text → Text → Prop
  | done {t : Text} : Ignored t t
  | space {c : Char} {t rest : Text} : isSpace c = true → Ignored t rest → Ignored (c :: t) rest
  | comment {w t rest : Text} : '\n' ∉ w → StopsAt (· ≠ '\n') t → Ignored t rest →
      Ignored ('#' :: w ++ t) rest

/-- Whether a blank or a comment starts with this character. -/
def startsIgnored (c : Char) : Bool := isSpace c || c = '#'

theorem skip_comment {w t : Text} (hw : '\n' ∉ w) (ht : StopsAt (· ≠ '\n') t) :
    skip true (w ++ t) = skip false t := by
  induction w with
  | nil =>
      cases t with
      | nil => rfl
      | cons c t =>
          have line : c = '\n' := by simpa using ht c rfl
          subst line
          rfl
  | cons c w ih =>
      have hc : c ≠ '\n' := fun h => hw (h ▸ List.mem_cons_self)
      rw [List.cons_append, skip, if_neg hc]
      exact ih fun h => hw (List.mem_cons_of_mem c h)

/-- Blanks and comments are skipped up to anything else. -/
theorem skip_eq_of_ignored {t rest : Text} (h : Ignored t rest)
    (hr : StopsAt startsIgnored rest) : skip false t = rest := by
  induction h with
  | @done t =>
      cases t with
      | nil => rfl
      | cons c t =>
          have hc := hr c rfl
          rw [startsIgnored, Bool.or_eq_false_iff, decide_eq_false_iff_not] at hc
          rw [skip, if_neg (by simp [hc.1]), if_neg hc.2]
  | space hc _ ih =>
      rw [skip, if_pos hc]
      exact ih hr
  | comment hw ht _ ih =>
      rw [List.cons_append, skip, if_neg (by decide), if_pos rfl, skip_comment hw ht]
      exact ih hr

theorem exists_line (t : Text) : ∃ w u, t = w ++ u ∧ '\n' ∉ w ∧ StopsAt (· ≠ '\n') u := by
  refine ⟨t.takeWhile (· ≠ '\n'), t.dropWhile (· ≠ '\n'), ?_, ?_, stopsAt_dropWhile _ _⟩
  · exact List.takeWhile_append_dropWhile.symm
  · intro h
    have not := mem_takeWhile h
    simp at not

/-- What is skipped are blanks and comments, and nothing of them is left. -/
theorem ignored_skip (t : Text) :
    Ignored t (skip false t) ∧ StopsAt startsIgnored (skip false t) := by
  induction hn : t.length using Nat.strongRecOn generalizing t with
  | ind n ih =>
      cases t with
      | nil =>
          refine ⟨.done, ?_⟩
          intro c hc
          cases hc
      | cons c t =>
          rw [skip]
          split
          · next hc =>
              obtain ⟨ignored, stops⟩ := ih t.length (by simp [← hn]) t rfl
              exact ⟨.space hc ignored, stops⟩
          · next hs =>
              split
              · next hc =>
                  obtain ⟨w, u, rfl, hw, hu⟩ := exists_line t
                  rw [skip_comment hw hu]
                  have shorter : u.length < n := by
                    rw [← hn, List.length_cons, List.length_append]
                    omega
                  obtain ⟨ignored, stops⟩ := ih u.length shorter u rfl
                  rw [hc]
                  exact ⟨.comment hw hu ignored, stops⟩
              · next hc =>
                  refine ⟨.done, ?_⟩
                  rintro d ⟨⟩
                  simp [startsIgnored, hs, hc]

/-- No token starts as a blank or a comment does. -/
theorem Matches.stopsAt {allowed : Terminal → Prop} {text rest : Text} {tok : Token}
    (h : Matches allowed text tok rest) : StopsAt startsIgnored text := by
  have other : ∀ c, startsIgnored c = true → c.isDigit = false ∧ isNameStart c = false := by
    intro c hc
    simp only [startsIgnored, isSpace, List.mem_cons, List.not_mem_nil, or_false,
      Bool.or_eq_true, decide_eq_true_eq] at hc
    rcases hc with (rfl | rfl | rfl | rfl | rfl) | rfl <;> decide
  have word : ∀ {w rest : Text}, IsWord w → StopsAt startsIgnored (w ++ rest) := by
    rintro w rest ⟨c, t, rfl, start, -⟩ d ⟨⟩
    rw [Bool.eq_false_iff]
    intro hd
    rw [(other c hd).2] at start
    cases start
  cases h with
  | string _ _ =>
      rintro c ⟨⟩
      decide
  | int _ numeral _ =>
      obtain ⟨c, t, rfl⟩ := List.exists_cons_of_ne_nil numeral.1
      rintro d ⟨⟩
      rw [Bool.eq_false_iff]
      intro hd
      have digit := numeral.2 c List.mem_cons_self
      rw [(other c hd).1] at digit
      cases digit
  | name _ isWord _ _ => exact word isWord
  | word _ _ _ => exact word (isWord_word _)
  | front _ _ => exact word (isWord_word _)
  | sign hs _ =>
      have all : ∀ s ∈ Terminal.signs, s.2.head?.all (fun c => !startsIgnored c) = true := by
        decide
      obtain ⟨c, t, hw⟩ := List.exists_cons_of_ne_nil (sign_ne_nil _ hs)
      have hc := all _ hs
      rw [hw] at hc ⊢
      rintro d ⟨⟩
      simpa using hc

end FlowGraph.Listing
