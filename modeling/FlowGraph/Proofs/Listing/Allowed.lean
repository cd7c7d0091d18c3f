import FlowGraph.Proofs.Listing.Replay

/-!
# What may stand next

`Allowed before t` says that some listing goes on with a token of the terminal `t` after
the tokens `before`.  The state reached over these tokens accepts exactly what is allowed
(`allowed_iff_accepts`), since from every state the open parts can be closed
(`State.closable`).

The scanner tries all that is allowed (`State.lexable_of_accepts`), and nothing else where it
tries a name (`State.lexable_eq_accepts`).
-/

namespace FlowGraph.Listing

/-- Whether a listing may go on with a token of this terminal after these tokens. -/
def Allowed (before : List Token) (t : Terminal) : Prop :=
  ∃ tok rest f, tok.terminal = t ∧ Derives (.symbol .start) f ∧ f.leaves = before ++ tok :: rest

namespace State

/-! ## Steps and terminals -/

/-- Whether a token can be read depends on its terminal only. -/
theorem isSome_step (s : State) (t : Token) : (s.step t).isSome = s.accepts t.terminal := by
  obtain ⟨k, w⟩ := t
  unfold accepts step
  dsimp only
  split <;> rfl

/-! ## Closing what is open -/

/-- Whether some tokens lead back between methods. -/
def Closable (s : State) : Prop :=
  ∃ ts trees, (∀ t ∈ ts, Token.IsSpelled t) ∧ s.run ts = some (top trees)

theorem isSpelled_token (k : Terminal) (w : Text) : (k.token w).IsSpelled := by
  intro v hv
  show k.text?.getD w = v
  change k.text? = some v at hv
  rw [hv]
  rfl

theorem Closable.of_step {s s' : State} (k : Terminal) (h : s.step (k.token []) = some s')
    (hs : s'.Closable) : s.Closable := by
  obtain ⟨ts, trees, hts, run⟩ := hs
  refine ⟨k.token [] :: ts, trees, List.forall_mem_cons.2 ⟨isSpelled_token k [], hts⟩, ?_⟩
  rw [run_cons, h]
  exact run

theorem closable_top (done : List MethodTree) : (top done).Closable := ⟨[], done, by simp, rfl⟩

theorem closable_body (m : OpenMethod) : (body m).Closable :=
  .of_step .rbrace rfl (closable_top _)

theorem closable_blockBody (b : OpenBlock) : (blockBody b).Closable :=
  .of_step .rbrace rfl (closable_body _)

theorem closable_blockOffset (m : OpenMethod) (id offset : Text) :
    (blockOffset m id offset).Closable := .of_step .lbrace rfl (closable_blockBody _)

theorem closable_blockSuccessor (m : OpenMethod) (id offset d : Text) (ds : List Text) :
    (blockSuccessor m id offset d ds).Closable := .of_step .lbrace rfl (closable_blockBody _)

theorem closable_instructionText (b : OpenBlock) (opcode text : Text) :
    (instructionText b opcode text).Closable := .of_step .rbrace rfl (closable_body _)

/-- The induction is on the regions around the place. -/
theorem closable_close (site : RegionSite) (r : RegionTree) : (site.close r).Closable := by
  induction site generalizing r with
  | item m => exact closable_body _
  | handler m c => exact .of_step .rbrace rfl (closable_body _)
  | child site line before ih => exact .of_step .rbrace rfl (ih _)

theorem closable_regionBody (site : RegionSite) (line : RegionLine) (before : RegionItems) :
    (regionBody site line before).Closable := .of_step .rbrace rfl (closable_close _ _)

theorem closable_regionText (site : RegionSite) (kind description : Text) :
    (regionText site kind description).Closable := .of_step .lbrace rfl (closable_regionBody ..)

theorem closable_handlerBody (m : OpenMethod) (c : Option Text) : (handlerBody m c).Closable :=
  .of_step .rbrace rfl (closable_body _)

theorem closable_list (site : ListSite) (ss : List Text) : (site.close ss).Closable := by
  cases site with
  | item m => exact closable_body _
  | block m id offset ds => exact .of_step .lbrace rfl (closable_blockBody _)
  | instruction b opcode text target => exact closable_blockBody _
  | region site kind description => exact .of_step .lbrace rfl (closable_regionBody ..)

theorem closable_listString (site : ListSite) (first : Text) (more : List Text) :
    (listString site first more).Closable := .of_step .rsqb rfl (closable_list _ _)

/-- Every state is on the way to a listing. -/
theorem closable (s : State) : s.Closable := by
  cases s with
  | top done => exact closable_top done
  | methodWord done =>
      exact .of_step .string rfl (.of_step .string rfl (.of_step .lbrace rfl (closable_body _)))
  | methodClass done c => exact .of_step .string rfl (.of_step .lbrace rfl (closable_body _))
  | methodId done c i => exact .of_step .lbrace rfl (closable_body _)
  | body m => exact closable_body m
  | flags m names => exact .of_step .rbrace rfl (closable_top _)
  | returnsWord m => exact .of_step .string rfl (closable_body _)
  | argsWord m => exact .of_step .string rfl (.of_step .rbrace rfl (closable_top _))
  | args m first more => exact .of_step .rbrace rfl (closable_top _)
  | argsComma m first more => exact .of_step .string rfl (.of_step .rbrace rfl (closable_top _))
  | attrsWord m => exact .of_step .lsqb rfl (.of_step .rsqb rfl (closable_list (.item m) []))
  | entryWord m => exact .of_step .int rfl (closable_body _)
  | blockWord m =>
      exact .of_step .int rfl (.of_step .atSign rfl (.of_step .int rfl (closable_blockOffset ..)))
  | blockId m id => exact .of_step .atSign rfl (.of_step .int rfl (closable_blockOffset ..))
  | blockAt m id => exact .of_step .int rfl (closable_blockOffset ..)
  | blockOffset m id offset => exact closable_blockOffset m id offset
  | blockArrow m id offset => exact .of_step .int rfl (closable_blockSuccessor ..)
  | blockSuccessor m id offset d ds => exact closable_blockSuccessor m id offset d ds
  | blockComma m id offset d ds => exact .of_step .int rfl (closable_blockSuccessor ..)
  | blockListed m id offset ds as => exact .of_step .lbrace rfl (closable_blockBody _)
  | blockBody b => exact closable_blockBody b
  | instructionWord b =>
      exact .of_step .name rfl (.of_step .string rfl (closable_instructionText ..))
  | instructionOpcode b opcode => exact .of_step .string rfl (closable_instructionText ..)
  | instructionText b opcode text => exact closable_instructionText b opcode text
  | elseWord b opcode text => exact .of_step .int rfl (.of_step .rbrace rfl (closable_body _))
  | elseTarget b opcode text target => exact .of_step .rbrace rfl (closable_body _)
  | regionWord site => exact .of_step .name rfl (.of_step .string rfl (closable_regionText ..))
  | regionKind site kind => exact .of_step .string rfl (closable_regionText ..)
  | regionText site kind description => exact closable_regionText site kind description
  | regionListed site line => exact .of_step .lbrace rfl (closable_regionBody ..)
  | regionBody site line before => exact closable_regionBody site line before
  | regionRef site line before => exact .of_step .int rfl (closable_regionBody ..)
  | handlerWord m => exact .of_step .lbrace rfl (closable_handlerBody ..)
  | handlerType m c => exact .of_step .lbrace rfl (closable_handlerBody ..)
  | handlerBody m c => exact closable_handlerBody m c
  | handlerRegion m c r => exact .of_step .rbrace rfl (closable_body _)
  | listOpen site => exact .of_step .rsqb rfl (closable_list site [])
  | listString site s ss => exact closable_listString site s ss
  | listComma site s ss => exact .of_step .string rfl (closable_listString ..)

/-! ## What is allowed -/

/-- After a run from the start, what is allowed is what the state accepts. -/
theorem allowed_iff_accepts {before : List Token} (spelled : ∀ t ∈ before, t.IsSpelled)
    {s : State} (h : (top []).run before = some s) (k : Terminal) :
    Allowed before k ↔ s.accepts k = true := by
  constructor
  · rintro ⟨tok, rest, f, rfl, hf, leaves⟩
    obtain ⟨trees, rfl⟩ := (denotes_listing f).1 hf
    have run := run_listing [] trees
    rw [← leaves_listingDerivation, leaves, run_append, h, Option.bind_some, run_cons] at run
    obtain ⟨s', step, -⟩ := Option.bind_eq_some_iff.1 run
    rw [← isSome_step, step]
    rfl
  · intro accepts
    have some : (s.step (k.token [])).isSome = true := by
      rw [isSome_step]
      exact accepts
    obtain ⟨s', step⟩ := Option.isSome_iff_exists.1 some
    obtain ⟨rest, trees, spelledRest, run⟩ := closable s'
    have whole : (top []).run (before ++ k.token [] :: rest) = Option.some (top trees) := by
      rw [run_append, h]
      show (s.step (k.token [])).bind _ = _
      rw [step]
      exact run
    have spelledAll : ∀ t ∈ before ++ k.token [] :: rest, t.IsSpelled :=
      List.forall_mem_append.2
        ⟨spelled, List.forall_mem_cons.2 ⟨isSpelled_token k [], spelledRest⟩⟩
    exact ⟨k.token [], rest, listingDerivation trees, rfl, (denotes_listing _).2 ⟨trees, rfl⟩,
      (run_top_iff spelledAll).1 whole⟩

/-! ## What the scanner tries -/

theorem startsItem_of_step {m : OpenMethod} {k : Terminal} (h : (m.step k).isSome = true) :
    startsItem k = true := by
  unfold OpenMethod.step at h
  split at h <;> first | rfl | cases h

theorem startsItem_of_regionBody {site : RegionSite} {line : RegionLine} {before : RegionItems}
    {k : Terminal} (h : (regionBody site line before).accepts k = true) : startsItem k = true := by
  cases k with
  | rbrace => rfl
  | keyword w => cases w <;> first | rfl | cases h
  | _ => cases h

theorem eq_rbrace_of_handlerRegion {m : OpenMethod} {c : Option Text} {r : RegionTree}
    {k : Terminal} (h : (handlerRegion m c r).accepts k = true) : k = .rbrace := by
  cases k with
  | rbrace => rfl
  | keyword w => cases w <;> cases h
  | _ => cases h

theorem lexable_close_region {site : RegionSite} {r : RegionTree} {k : Terminal}
    (h : (site.close r).accepts k = true) : (site.close r).lexable .regionClosed k = true := by
  cases site with
  | item m => exact startsItem_of_step h
  | handler m c =>
      cases eq_rbrace_of_handlerRegion h
      rfl
  | child site line before => exact startsItem_of_regionBody h

theorem lexable_close_list {site : ListSite} {ss : List Text} {k : Terminal}
    (h : (site.close ss).accepts k = true) : (site.close ss).lexable .listClosed k = true := by
  cases site with
  | item m =>
      have starts : startsItem k = true := startsItem_of_step h
      simp [lexable, starts]
  | block m id offset ds =>
      cases k with
      | lbrace => rfl
      | keyword w => cases w <;> cases h
      | _ => cases h
  | instruction b opcode text target =>
      cases k with
      | rbrace => rfl
      | keyword w => cases w <;> first | rfl | cases h
      | _ => cases h
  | region site kind description =>
      cases k with
      | lbrace => rfl
      | keyword w => cases w <;> cases h
      | _ => cases h

theorem lexable_args {m : OpenMethod} {first : Text} {more : List Text} {k : Terminal}
    (h : (args m first more).accepts k = true) :
    (args m first more).lexable .laterString k = true := by
  cases k with
  | comma => rfl
  | rbrace => rfl
  | keyword w => cases w <;> first | rfl | cases h
  | _ => cases h

theorem lexable_listString {site : ListSite} {first : Text} {more : List Text} {k : Terminal}
    (h : (listString site first more).accepts k = true) :
    (listString site first more).lexable .laterString k = true := by
  cases k with
  | comma => rfl
  | rsqb => rfl
  | keyword w => cases w <;> cases h
  | _ => cases h

/-- What can be read after a token is among what the scanner tries there. -/
theorem lexable_of_accepts {s s' : State} {t : Token} {k : Terminal} (h : s.step t = some s')
    (hk : s'.accepts k = true) : s'.lexable (s.juncture t.terminal) k = true := by
  obtain ⟨j, w⟩ := t
  dsimp only
  unfold juncture
  split
  · cases h
    exact lexable_close_region hk
  · cases h
    exact lexable_close_list hk
  · cases h
    exact lexable_close_list hk
  · cases h
    exact lexable_args hk
  · cases h
    exact lexable_listString hk
  · exact hk

/-- Where the scanner tries names it tries only what can be read. -/
theorem lexable_eq_accepts {s : State} {j : Juncture} (h : s.lexable j .name = true) :
    s.lexable j = s.accepts := by
  cases j with
  | plain => rfl
  | _ => cases h

end State

end FlowGraph.Listing
