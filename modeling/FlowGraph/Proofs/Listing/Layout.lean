import FlowGraph.Proofs.Listing.Acceptance

/-!
# Writing tokens

`spaced` writes tokens one after another, each followed by a blank.  The tokens of methods
are read back from that (`read_spaced`), if each has the form of its terminal and no access
flag is a keyword that starts an item.

Flags need that condition since they are the one place where both names and keywords may
stand (`State.accepts_name_keyword`).  What stands there ends up among the flags of a
method, since the flags read so far are never lost (`State.flagWords_step`).
-/

namespace FlowGraph.Listing

/-! ## Tokens in any place -/

/-- Whether the text of a token has the form of its terminal. -/
def Token.IsFormed (t : Token) : Prop :=
  match t.terminal with
  | .string => ∃ body, IsStringBody body ∧ t.lexeme = '"' :: body ++ ['"']
  | .int => IsNumeral t.lexeme
  | .name => IsWord t.lexeme
  | _ => t.IsSpelled

theorem isNameChar_of_isDigit {c : Char} (h : c.isDigit = true) : isNameChar c = true := by
  simp [isNameChar, Char.isAlphanum, h]

/-- A token of the right form is found before anything that is no part of a word. -/
theorem Token.IsFormed.matches {allowed : Terminal → Prop} {t : Token} {rest : Text}
    (form : t.IsFormed) (allows : allowed t.terminal) (stops : StopsAt isNameChar rest)
    (names : t.terminal = .name → ∀ k : Keyword, k.word = t.lexeme → ¬ allowed (.keyword k)) :
    Matches allowed (t.lexeme ++ rest) t rest := by
  obtain ⟨k, w⟩ := t
  have sign : ∀ v, (k, v) ∈ Terminal.signs → w = v → Matches allowed (w ++ rest) ⟨k, w⟩ rest := by
    rintro v mem rfl
    exact .sign mem allows
  cases k with
  | string =>
      obtain ⟨body, isBody, same⟩ := form
      dsimp only at same
      have found : Matches allowed ('"' :: body ++ '"' :: rest) ⟨.string, '"' :: body ++ ['"']⟩ rest :=
        .string allows isBody
      rw [same]
      simpa using found
  | int =>
      refine .int allows form fun c hc => ?_
      rw [Bool.eq_false_iff]
      intro digit
      have noName := stops c hc
      rw [isNameChar_of_isDigit digit] at noName
      cases noName
  | name => exact .name allows form stops (names rfl)
  | keyword k =>
      have same : w = k.word := form k.word rfl
      rw [same]
      by_cases hn : allowed .name
      · exact .word hn allows stops
      · exact .front hn allows
  | lbrace => exact sign ['{'] (by decide) (form _ rfl)
  | rbrace => exact sign ['}'] (by decide) (form _ rfl)
  | lsqb => exact sign ['['] (by decide) (form _ rfl)
  | rsqb => exact sign [']'] (by decide) (form _ rfl)
  | comma => exact sign [','] (by decide) (form _ rfl)
  | atSign => exact sign ['@'] (by decide) (form _ rfl)
  | arrow => exact sign ['-', '>'] (by decide) (form _ rfl)

/-! ## Access flags -/

/-- The access flags that an item states. -/
def Item.flagWords : Item → List Text
  | .clause (.flags names) => names
  | _ => []

/-- The access flags of a method. -/
def MethodTree.flagWords (m : MethodTree) : List Text := m.items.flatMap Item.flagWords

/-- The access flags of the methods before an open one, and its own so far. -/
def OpenMethod.flagWords (m : OpenMethod) : List Text :=
  m.done.flatMap MethodTree.flagWords ++ m.items.flatMap Item.flagWords

/-- The method around the place of a region. -/
def RegionSite.method : RegionSite → OpenMethod
  | item m => m
  | handler m _ => m
  | child site _ _ => site.method

def ListSite.method : ListSite → OpenMethod
  | item m => m
  | block m _ _ _ => m
  | instruction b _ _ _ => b.method
  | region site _ _ => site.method

/-- The access flags read so far. -/
def State.flagWords : State → List Text
  | top done | methodWord done | methodClass done _ | methodId done _ _ =>
      done.flatMap MethodTree.flagWords
  | flags m names => m.flagWords ++ names
  | body m | returnsWord m | argsWord m | args m _ _ | argsComma m _ _ | attrsWord m
  | entryWord m | blockWord m | blockId m _ | blockAt m _ | blockOffset m _ _
  | blockArrow m _ _ | blockSuccessor m _ _ _ _ | blockComma m _ _ _ _ | blockListed m _ _ _ _
  | handlerWord m | handlerType m _ | handlerBody m _ | handlerRegion m _ _ => m.flagWords
  | blockBody b | instructionWord b | instructionOpcode b _ | instructionText b _ _
  | elseWord b _ _ | elseTarget b _ _ _ => b.method.flagWords
  | regionWord site | regionKind site _ | regionText site _ _ | regionListed site _
  | regionBody site _ _ | regionRef site _ _ => site.method.flagWords
  | listOpen site | listString site _ _ | listComma site _ _ => site.method.flagWords

@[simp] theorem OpenMethod.flagWords_add (m : OpenMethod) (i : Item) :
    (m.add i).flagWords = m.flagWords ++ i.flagWords := by
  simp [add, flagWords]

@[simp] theorem OpenMethod.flagWords_state (m : OpenMethod) (c : Clause) :
    (m.state c).flagWords = m.flagWords ++ (Item.clause c).flagWords := flagWords_add m (.clause c)

theorem OpenMethod.flagWords_close (m : OpenMethod) :
    m.close.flatMap MethodTree.flagWords = m.flagWords := by
  simp [close, flagWords, MethodTree.flagWords]

theorem RegionSite.flagWords_close (site : RegionSite) (r : RegionTree) :
    site.method.flagWords ⊆ (site.close r).flagWords := by
  cases site <;> simp [close, method, State.flagWords]

theorem ListSite.flagWords_close (site : ListSite) (ss : List Text) :
    site.method.flagWords ⊆ (site.close ss).flagWords := by
  cases site <;> simp [close, method, State.flagWords, OpenBlock.add]

theorem OpenMethod.flagWords_step {m : OpenMethod} {k : Terminal} {s : State}
    (h : m.step k = some s) : m.flagWords ⊆ s.flagWords := by
  unfold step at h
  split at h
  case h_10 =>
    cases h
    exact m.flagWords_close ▸ List.Subset.refl _
  case h_11 => cases h
  all_goals
    cases h
    simp [State.flagWords, RegionSite.method]

theorem OpenBlock.flagWords_step {b : OpenBlock} {k : Terminal} {s : State}
    (h : b.step k = some s) : b.method.flagWords ⊆ s.flagWords := by
  unfold step at h
  split at h <;> cases h <;> simp [State.flagWords, close]

/-- No access flag is lost by reading a token. -/
theorem State.flagWords_step {s s' : State} {t : Token} (h : s.step t = some s') :
    s.flagWords ⊆ s'.flagWords := by
  obtain ⟨k, w⟩ := t
  unfold step at h
  dsimp only at h
  split at h
  case h_4 =>
    cases h
    simp [flagWords, OpenMethod.flagWords]
  case h_6 _ _ m names =>
    cases h
    have more : flagWords (flags m (names ++ [w])) = flagWords (flags m names) ++ [w] :=
      (List.append_assoc _ _ _).symm
    rw [more]
    exact List.subset_append_left _ _
  -- The token belongs to the part around the one that it ends.
  case h_5 => exact OpenMethod.flagWords_step h
  case h_7 | h_11 =>
    refine List.Subset.trans ?_ (OpenMethod.flagWords_step h)
    simp [flagWords, Item.flagWords]
  case h_27 => exact OpenBlock.flagWords_step h
  case h_32 | h_35 => exact OpenBlock.flagWords_step (b := OpenBlock.add _ _) h
  case h_43 =>
    cases h
    exact RegionSite.flagWords_close _ _
  case h_52 | h_54 =>
    cases h
    exact ListSite.flagWords_close _ _
  case h_56 => cases h
  all_goals
    cases h
    simp [flagWords, Item.flagWords, RegionSite.method, ListSite.method]

theorem State.flagWords_run {s s' : State} {ts : List Token} (h : s.run ts = some s') :
    s.flagWords ⊆ s'.flagWords := by
  induction ts generalizing s with
  | nil =>
      cases h
      exact List.Subset.refl _
  | cons t ts ih =>
      obtain ⟨s₁, step, run⟩ := Option.bind_eq_some_iff.1 h
      exact List.Subset.trans (flagWords_step step) (ih run)

/-- Names and keywords may stand together only among access flags. -/
theorem State.accepts_name_keyword {s : State} {k : Keyword} (hn : s.accepts .name = true)
    (hk : s.accepts (.keyword k) = true) :
    (∃ m names, s = flags m names) ∧ k.startsItem = true := by
  cases s with
  | flags m names => exact ⟨⟨m, names, rfl⟩, State.startsItem_of_step hk⟩
  | instructionWord b => cases k <;> cases hk
  | regionWord site => cases k <;> cases hk
  | _ => cases hn

/-! ## Reading what is written -/

/-- Tokens one after another, each followed by a blank. -/
def spaced (ts : List Token) : Text := ts.flatMap fun t => t.lexeme ++ [' ']

/-- Whether some words may be access flags: none is a keyword that starts an item. -/
def FlagsFit (words : List Text) : Prop :=
  ∀ w ∈ words, ∀ k ∈ Keyword.all, k.startsItem = true → k.word ≠ w

instance (words : List Text) : Decidable (FlagsFit words) := by
  unfold FlagsFit
  infer_instance

/-- Tokens that continue a run to its end are found one by one. -/
theorem scans_spaced {s : State} {before ts : List Token} {trees : List MethodTree}
    (spelled : ∀ t ∈ before, t.IsSpelled) (run : (State.top []).run before = some s)
    (rest : s.run ts = some (.top trees)) (formed : ∀ t ∈ ts, t.IsFormed)
    (fit : FlagsFit (trees.flatMap MethodTree.flagWords)) {text : Text}
    (ignored : Ignored text (spaced ts)) : Scans before text ts := by
  induction ts generalizing s before text with
  | nil => exact .done ignored
  | cons t ts ih =>
      obtain ⟨s₁, step, rest₁⟩ := Option.bind_eq_some_iff.1 rest
      obtain ⟨form, formed⟩ := List.forall_mem_cons.1 formed
      have allows : Allowed before t.terminal := by
        rw [State.allowed_iff_accepts spelled run, ← State.isSome_step, step]
        rfl
      have names : t.terminal = .name → ∀ k : Keyword, k.word = t.lexeme →
          ¬ Allowed before (.keyword k) := by
        intro isName k word keyword
        rw [isName, State.allowed_iff_accepts spelled run] at allows
        rw [State.allowed_iff_accepts spelled run] at keyword
        obtain ⟨⟨m, names, rfl⟩, starts⟩ := State.accepts_name_keyword allows keyword
        have read : s₁ = .flags m (names ++ [t.lexeme]) := by
          obtain ⟨_, w⟩ := t
          cases isName
          cases step
          rfl
        have kept : t.lexeme ∈ (State.top trees).flagWords := by
          refine State.flagWords_run rest₁ ?_
          rw [read]
          exact List.mem_append_right _ (List.mem_append_right _ List.mem_cons_self)
        exact fit t.lexeme kept k (Keyword.mem_all k) starts word
      have stops : StopsAt isNameChar (' ' :: spaced ts) := by
        rintro c ⟨⟩
        decide
      have found := form.matches allows stops names
      have spelled' : ∀ t' ∈ before ++ [t], t'.IsSpelled :=
        List.forall_mem_append.2 ⟨spelled, by simpa using found.isSpelled⟩
      have run' : (State.top []).run (before ++ [t]) = some s₁ := by
        rw [State.run_append, run]
        show (s.step t).bind _ = _
        rw [step]
        rfl
      have split : spaced (t :: ts) = t.lexeme ++ ' ' :: spaced ts := by
        simp [spaced]
      rw [split] at ignored
      exact .token ignored found (ih spelled' run' rest₁ formed (.space rfl .done))

/-- The tokens of methods are read back from what is written for them. -/
theorem read_spaced {trees : List MethodTree}
    (formed : ∀ t ∈ (listingDerivation trees).leaves, t.IsFormed)
    (fit : FlagsFit (trees.flatMap MethodTree.flagWords)) :
    read (spaced (listingDerivation trees).leaves) = .ok trees := by
  have run : (State.top []).run (listingDerivation trees).leaves = some (.top trees) := by
    rw [leaves_listingDerivation]
    exact State.run_listing [] trees
  have scans : Scans [] _ _ := scans_spaced (by simp) rfl run formed fit .done
  exact (Reader.finish_iff {} _ _ [] (by simp) rfl (fun _ hk => hk) trees).2 ⟨_, scans, rfl⟩

end FlowGraph.Listing
