import FlowGraph.Forest
import FlowGraph.Listing.Token

/-!
# The grammar of listings

`Symbol.rule` gives each phrase of a listing by a pattern of terminals and phrases.  A
*derivation* is a forest with symbols on its nodes and tokens on its leaves, and
`Derives p f` says that `f` derives its leaves from `p`.  A sequence of tokens is a
listing if it is the leaves of a derivation from `Symbol.start`.

`Denotes p d` says that the derivations from `p` are exactly the values of `d`.  It is
compositional: the lemmas on `Denotes` give the derivations of a pattern from those of
its parts.
-/

namespace FlowGraph.Listing

/-! ## Patterns and rules -/

/-- A phrase of a listing. -/
inductive Symbol where
  | start | method
  | flags | returns | args | attrs | nocode | entry | block | region | handler
  | successors | insn | elseTarget | blockRef | attrList
deriving DecidableEq, Repr

/-- A pattern of terminals and phrases. -/
inductive Pattern where
  | empty
  | terminal (t : Terminal)
  | symbol (s : Symbol)
  | seq (p q : Pattern)
  | alt (p q : Pattern)
  | optional (p : Pattern)
  | many (p : Pattern)
deriving DecidableEq, Repr

namespace Pattern

/-- Patterns one after another. -/
def sequence : List Pattern → Pattern
  | [] => empty
  | p :: ps => seq p (sequence ps)

def keyword (k : Keyword) : Pattern := terminal (.keyword k)

/-- Terminals of one kind behind commas. -/
def furtherOnes (t : Terminal) : Pattern := many (sequence [terminal .comma, terminal t])

def methodItem : Pattern :=
  alt (symbol .flags) (alt (symbol .returns) (alt (symbol .args) (alt (symbol .attrs)
    (alt (symbol .nocode) (alt (symbol .entry) (alt (symbol .block) (alt (symbol .region)
      (symbol .handler))))))))

def regionItem : Pattern := alt (symbol .region) (symbol .blockRef)

end Pattern

open Pattern in
/-- The pattern of a phrase. -/
def Symbol.rule : Symbol → Pattern
  | start => many (symbol method)
  | method =>
      sequence [keyword .method, terminal .string, terminal .string, terminal .lbrace,
        many methodItem, terminal .rbrace]
  | flags => sequence [keyword .flags, many (terminal .name)]
  | returns => sequence [keyword .returns, terminal .string]
  | args => sequence [keyword .args, terminal .string, furtherOnes .string]
  | attrs => sequence [keyword .attrs, symbol attrList]
  | nocode => keyword .nocode
  | entry => sequence [keyword .entry, terminal .int]
  | block =>
      sequence [keyword .block, terminal .int, terminal .atSign, terminal .int,
        optional (symbol successors), optional (symbol attrList), terminal .lbrace,
        many (symbol insn), terminal .rbrace]
  | successors => sequence [terminal .arrow, terminal .int, furtherOnes .int]
  | insn =>
      sequence [keyword .insn, terminal .name, terminal .string, optional (symbol elseTarget),
        optional (symbol attrList)]
  | elseTarget => sequence [keyword .elseTo, terminal .int]
  | region =>
      sequence [keyword .region, terminal .name, terminal .string, optional (symbol attrList),
        terminal .lbrace, many regionItem, terminal .rbrace]
  | blockRef => sequence [keyword .block, terminal .int]
  | handler =>
      sequence [keyword .handler, optional (terminal .string), terminal .lbrace,
        optional (symbol region), terminal .rbrace]
  | attrList =>
      sequence [terminal .lsqb, optional (sequence [terminal .string, furtherOnes .string]),
        terminal .rsqb]

/-! ## Derivations -/

/-- The text of a terminal that has only one. -/
@[simp] def Terminal.text? : Terminal → Option Text
  | string | name | int => none
  | lbrace => some ['{']
  | rbrace => some ['}']
  | lsqb => some ['[']
  | rsqb => some [']']
  | comma => some [',']
  | atSign => some ['@']
  | arrow => some ['-', '>']
  | keyword k => some k.word

/-- Whether a token has the text of its terminal, where that has only one. -/
def Token.IsSpelled (t : Token) : Prop := ∀ w ∈ t.terminal.text?, t.lexeme = w

/-- How tokens follow from a pattern: the phrases as nodes, the tokens as leaves. -/
abbrev Derivation := Forest Symbol Token

/-- The derivations from a pattern. -/
inductive Derives : Pattern → Derivation → Prop
  | empty : Derives .empty .nil
  | terminal {t : Token} : t.IsSpelled → Derives (.terminal t.terminal) (.leaf t .nil)
  | symbol {s : Symbol} {f : Derivation} : Derives s.rule f → Derives (.symbol s) (.node s f .nil)
  | seq {p q : Pattern} {f g : Derivation} : Derives p f → Derives q g →
      Derives (.seq p q) (f ++ g)
  | left {p q : Pattern} {f : Derivation} : Derives p f → Derives (.alt p q) f
  | right {p q : Pattern} {f : Derivation} : Derives q f → Derives (.alt p q) f
  | none {p : Pattern} : Derives (.optional p) .nil
  | some {p : Pattern} {f : Derivation} : Derives p f → Derives (.optional p) f
  | done {p : Pattern} : Derives (.many p) .nil
  | more {p : Pattern} {f g : Derivation} : Derives p f → Derives (.many p) g →
      Derives (.many p) (f ++ g)

/-! ## What a pattern denotes -/

/-- Whether the derivations from a pattern are the values of a function. -/
def Denotes (p : Pattern) {α : Type} (d : α → Derivation) : Prop :=
  ∀ f, Derives p f ↔ ∃ a, d a = f

/-- The values of a function on a list, one after another. -/
def joined {α : Type} (d : α → Derivation) : List α → Derivation
  | [] => .nil
  | a :: as => d a ++ joined d as

namespace Denotes

variable {p q : Pattern} {α β : Type} {d : α → Derivation} {e : β → Derivation}

/-- A pattern denotes every function with the same values. -/
theorem transfer (hp : Denotes p d) (values : ∀ b, ∃ a, d a = e b) (all : ∀ a, ∃ b, e b = d a) :
    Denotes p e := by
  intro f
  rw [hp f]
  constructor
  · rintro ⟨a, rfl⟩
    exact all a
  · rintro ⟨b, rfl⟩
    exact values b

theorem self (p : Pattern) : Denotes p fun g : { g // Derives p g } => g.1 := by
  intro f
  constructor
  · intro h
    exact ⟨⟨f, h⟩, rfl⟩
  · rintro ⟨g, rfl⟩
    exact g.2

theorem empty : Denotes .empty fun _ : Unit => .nil := by
  intro f
  constructor
  · intro h
    cases h
    exact ⟨(), rfl⟩
  · rintro ⟨-, rfl⟩
    exact .empty

theorem fixed {t : Terminal} {w : Text} (ht : t.text? = some w) :
    Denotes (.terminal t) fun _ : Unit => .leaf ⟨t, w⟩ .nil := by
  intro f
  constructor
  · intro h
    cases h with
    | @terminal tok hs =>
        obtain ⟨t, v⟩ := tok
        cases hs w ht
        exact ⟨(), rfl⟩
  · rintro ⟨-, rfl⟩
    refine .terminal (t := ⟨t, w⟩) fun v hv => ?_
    rw [ht] at hv
    exact Option.some.inj hv

theorem free {t : Terminal} (ht : t.text? = none) :
    Denotes (.terminal t) fun w : Text => .leaf ⟨t, w⟩ .nil := by
  intro f
  constructor
  · intro h
    cases h with
    | @terminal tok hs => exact ⟨tok.lexeme, rfl⟩
  · rintro ⟨w, rfl⟩
    refine .terminal (t := ⟨t, w⟩) fun v hv => ?_
    rw [ht] at hv
    cases hv

theorem symbol {s : Symbol} (h : Denotes s.rule d) :
    Denotes (.symbol s) fun a => .node s (d a) .nil := by
  intro f
  constructor
  · intro hf
    cases hf with
    | symbol hf =>
        obtain ⟨a, rfl⟩ := (h _).1 hf
        exact ⟨a, rfl⟩
  · rintro ⟨a, rfl⟩
    exact .symbol ((h _).2 ⟨a, rfl⟩)

theorem seq (hp : Denotes p d) (hq : Denotes q e) :
    Denotes (.seq p q) fun x : α × β => d x.1 ++ e x.2 := by
  intro f
  constructor
  · intro h
    cases h with
    | seq hf hg =>
        obtain ⟨a, rfl⟩ := (hp _).1 hf
        obtain ⟨b, rfl⟩ := (hq _).1 hg
        exact ⟨(a, b), rfl⟩
  · rintro ⟨x, rfl⟩
    exact .seq ((hp _).2 ⟨x.1, rfl⟩) ((hq _).2 ⟨x.2, rfl⟩)

theorem alt (hp : Denotes p d) (hq : Denotes q e) : Denotes (.alt p q) (Sum.elim d e) := by
  intro f
  constructor
  · intro h
    cases h with
    | left hf =>
        obtain ⟨a, rfl⟩ := (hp _).1 hf
        exact ⟨.inl a, rfl⟩
    | right hf =>
        obtain ⟨b, rfl⟩ := (hq _).1 hf
        exact ⟨.inr b, rfl⟩
  · rintro ⟨a | b, rfl⟩
    · exact .left ((hp _).2 ⟨a, rfl⟩)
    · exact .right ((hq _).2 ⟨b, rfl⟩)

theorem optional (hp : Denotes p d) :
    Denotes (.optional p) fun o : Option α => (o.map d).getD .nil := by
  intro f
  constructor
  · intro h
    cases h with
    | none => exact ⟨none, rfl⟩
    | some hf =>
        obtain ⟨a, rfl⟩ := (hp _).1 hf
        exact ⟨some a, rfl⟩
  · rintro ⟨o, rfl⟩
    cases o with
    | none => exact .none
    | some a => exact .some ((hp _).2 ⟨a, rfl⟩)

theorem many (hp : Denotes p d) : Denotes (.many p) (joined d) := by
  intro f
  constructor
  · intro h
    generalize hm : Pattern.many p = m at h
    induction h with
    | done => exact ⟨[], rfl⟩
    | more hf _ _ ih =>
        cases hm
        obtain ⟨a, rfl⟩ := (hp _).1 hf
        obtain ⟨as, rfl⟩ := ih rfl
        exact ⟨a :: as, rfl⟩
    | _ => cases hm
  · rintro ⟨as, rfl⟩
    induction as with
    | nil => exact .done
    | cons a as ih => exact .more ((hp _).2 ⟨a, rfl⟩) ih

theorem fixed_seq {t : Terminal} {w : Text} (ht : t.text? = some w) (hq : Denotes q e) :
    Denotes (.seq (.terminal t) q) fun b => .leaf ⟨t, w⟩ (e b) :=
  ((fixed ht).seq hq).transfer (fun b => ⟨((), b), rfl⟩) fun x => ⟨x.2, rfl⟩

theorem free_seq {t : Terminal} (ht : t.text? = none) (hq : Denotes q e) :
    Denotes (.seq (.terminal t) q) fun x : Text × β => .leaf ⟨t, x.1⟩ (e x.2) :=
  (free ht).seq hq

end Denotes

end FlowGraph.Listing
