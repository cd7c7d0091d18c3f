import Mathlib.Data.List.Infix
import FlowGraph.Proofs.Dot.Sentence

/-!
# Reading a graph document

`Reading.ofText?` reads the text of a graph document back, line by line and each line from
left to right.  It knows the words of a graph document and nothing of methods: names are
identifiers, and a quoted text ends at the first quote that no backslash escapes.  What it
gives is a list of rows, each a statement behind so many tabs.

Each statement is read as what it was written for (`statement?_cluster`,
`statement?_clusterLabel`, `statement?_edge`, `statement?_node`), whatever its texts, as long
as they stay within their quotes.  `Reads` and `ReadsRow` say so of a statement and of a line,
and `ofText?_unlines` puts lines together to a document.
-/

namespace FlowGraph.Dot

/-! ## Identifiers and quoted texts are on one line -/

theorem IsIdentifier.ne_nil {name : Text} (h : IsIdentifier name) : name ≠ [] := by
  obtain ⟨c, t, rfl, -, -⟩ := h
  exact List.cons_ne_nil c t

/-- A text behind an identifier starts with no tab. -/
theorem IsIdentifier.head?_append {name : Text} (h : IsIdentifier name) (t : Text) :
    (name ++ t).head? ≠ some '\t' := by
  obtain ⟨c, name, rfl, start, -⟩ := h
  rintro ⟨⟩
  exact absurd start (by decide)

theorem IsIdentifier.line {name : Text} (h : IsIdentifier name) : '\n' ∉ name := by
  obtain ⟨c, t, rfl, start, ht⟩ := h
  intro mem
  rcases List.mem_cons.1 mem with rfl | mem
  · exact absurd start (by decide)
  · exact absurd (ht _ mem) (by decide)

theorem IsQuoted.line {q : Text} (h : IsQuoted q) : '\n' ∉ q := by
  obtain ⟨body, _, rfl, -, -, hn⟩ := h
  simpa [quote] using hn

namespace Reading

/-! ## What is read -/

/-- A node. -/
structure Node where
  /-- Its name. -/
  name : Text
  /-- Whether it is outlined in red. -/
  red : Bool
  /-- What stands between the braces of its record. -/
  label : Text
deriving DecidableEq, Repr

/-- An edge. -/
structure Edge where
  /-- The name of the node it leaves. -/
  source : Text
  /-- The name of the node it enters. -/
  target : Text
  /-- Whether it is dotted. -/
  dotted : Bool
deriving DecidableEq, Repr

/-- A statement. -/
inductive Statement where
  | openCluster (name : Text)
  | clusterLabel (label : Text)
  | clusterStyle
  | closeCluster
  | node (n : Node)
  | edge (e : Edge)
deriving DecidableEq, Repr

/-- The node that a statement declares. -/
def Statement.toNode? : Statement → Option Node
  | node n => some n
  | _ => none

/-- The edge that a statement declares. -/
def Statement.toEdge? : Statement → Option Edge
  | edge e => some e
  | _ => none

/-- A statement on its line. -/
structure Row where
  /-- The number of tabs before it. -/
  tabs : Nat
  /-- The statement. -/
  statement : Statement
deriving DecidableEq, Repr

/-! ## Words -/

/-- An identifier at the start of a text, and what follows it. -/
def name? : Text → Option (Text × Text)
  | [] => none
  | c :: t =>
      if c.isAlpha || c = '_' then
        some (c :: t.takeWhile isIdentifierChar, t.dropWhile isIdentifierChar)
      else none

/-- A text up to its first bare quote, and what follows that. -/
def untilQuote : Text → Option (Text × Text)
  | [] => none
  | [c] => if c = '"' then some ([], []) else none
  | c :: d :: t =>
      if c = '"' then some ([], d :: t)
      else if c = '\\' then (untilQuote t).map fun r => (c :: d :: r.1, r.2)
      else (untilQuote (d :: t)).map fun r => (c :: r.1, r.2)

/-- What stands between quotes at the start of a text, and what follows them. -/
def quoted? (t : Text) : Option (Text × Text) := do
  let t ← ['"'].isPrefixOf? t
  untilQuote t

/-- Whether a text starts with some word, and what follows the word if it does. -/
def optional (word t : Text) : Bool × Text :=
  match word.isPrefixOf? t with
  | some t => (true, t)
  | none => (false, t)

/-- What stands between braces. -/
def fields? (t : Text) : Option Text := do
  let t ← ['{'].isPrefixOf? t
  ['}'].isSuffixOf? t

/-! ## Statements -/

def cluster? (t : Text) : Option Statement := do
  let t ← (lit "subgraph ").isPrefixOf? t
  let (name, t) ← name? t
  if t = [' ', '{'] then some (.openCluster name) else none

def clusterLabel? (t : Text) : Option Statement := do
  let t ← (lit "label = ").isPrefixOf? t
  let (label, t) ← quoted? t
  if t = [';'] then some (.clusterLabel label) else none

def node? (t : Text) : Option Statement := do
  let (name, t) ← name? t
  let (_, t) := optional [' '] t
  let t ← (lit "[shape=record,").isPrefixOf? t
  let (red, t) := optional (lit "color=red,") t
  let t ← (lit "label=").isPrefixOf? t
  let (record, t) ← quoted? t
  let label ← fields? record
  if t = lit "];" then some (.node ⟨name, red, label⟩) else none

def edge? (t : Text) : Option Statement := do
  let (source, t) ← name? t
  let t ← (lit " -> ").isPrefixOf? t
  let (target, t) ← name? t
  let (dotted, t) := optional (lit "[style=dotted]") t
  if t = [';'] then some (.edge ⟨source, target, dotted⟩) else none

/-- The statement that a text is. -/
def statement? (t : Text) : Option Statement :=
  if t = ['}'] then some .closeCluster
  else if t = lit "node [shape=record,color=blue];" then some .clusterStyle
  else cluster? t <|> clusterLabel? t <|> edge? t <|> node? t

/-- The row that a line is. -/
def row? (line : Text) : Option Row :=
  (statement? (line.dropWhile (· = '\t'))).map fun s =>
    ⟨(line.takeWhile (· = '\t')).length, s⟩

/-- The title on the first line of a document. -/
def title? (t : Text) : Option Text := do
  let t ← (lit "digraph ").isPrefixOf? t
  let (title, t) ← quoted? t
  if t = [' ', '{'] then some title else none

end Reading

/-- What a graph document is read as. -/
structure Reading where
  /-- The title. -/
  title : Text
  /-- The rows between the first line and the last. -/
  rows : List Reading.Row
deriving DecidableEq, Repr

namespace Reading

/-- The rows that some lines are, if each of them is one. -/
def rows? : List Text → Option (List Row)
  | [] => some []
  | line :: lines => do
      let row ← row? line
      let rows ← rows? lines
      some (row :: rows)

/-- Reads a text of lines, each ended by a line break: the title, rows, and a closing brace. -/
def ofText? (t : Text) : Option Reading :=
  match t.splitOn '\n' with
  | [] => none
  | first :: lines => do
      let title ← title? first
      let inner ← [['}'], []].isSuffixOf? lines
      let rows ← rows? inner
      some ⟨title, rows⟩

/-- The statements of a document. -/
def statements (g : Reading) : List Statement := g.rows.map Row.statement

/-- The nodes of a document. -/
def nodes (g : Reading) : List Node := g.statements.filterMap Statement.toNode?

/-- The edges of a document. -/
def edges (g : Reading) : List Edge := g.statements.filterMap Statement.toEdge?

/-! ## Reading words -/

section Words

variable {w rest : Text}

theorem name?_append (h : IsIdentifier w) {c : Char} (hc : isIdentifierChar c = false) :
    name? (w ++ c :: rest) = some (w, c :: rest) := by
  obtain ⟨d, w, rfl, start, hw⟩ := h
  have hw : ∀ d ∈ w, isIdentifierChar d = true := hw
  rw [List.cons_append, name?, if_pos start, List.takeWhile_append_of_pos hw,
    List.dropWhile_append_of_pos hw, List.takeWhile_cons_of_neg (by simp [hc]),
    List.dropWhile_cons_of_neg (by simp [hc]), List.append_nil]

/-- A text without bare quotes is read up to the quote that follows it. -/
theorem untilQuote_append {marks : Text} (h : bare w = some marks) (hq : '"' ∉ marks) :
    untilQuote (w ++ '"' :: rest) = some (w, rest) := by
  induction w using bare.induct generalizing marks with
  | case1 => cases rest <;> simp [untilQuote]
  | case2 => simp [bare] at h
  | case3 c hc =>
      rw [bare, if_neg hc] at h
      cases h
      have plain : c ≠ '"' := fun same => hq (same ▸ List.mem_cons_self)
      cases rest <;> simp [untilQuote, hc, plain]
  | case4 d w ih =>
      rw [bare_pair] at h
      simp [untilQuote, ih h hq]
  | case5 c d w hc ih =>
      rw [bare_cons hc] at h
      obtain ⟨marks, hw, rfl⟩ := Option.map_eq_some_iff.1 h
      have plain : c ≠ '"' := fun same => hq (same ▸ List.mem_cons_self)
      have later := ih hw fun mem => hq (List.mem_cons_of_mem c mem)
      rw [List.cons_append] at later
      simp [untilQuote, hc, plain, later]

theorem quoted?_append (h : IsQuoted (quote w)) : quoted? (quote w ++ rest) = some (w, rest) := by
  obtain ⟨body, marks, same, hb, hq, -⟩ := h
  have same : w = body := by simpa [quote] using same
  subst same
  simp [quoted?, quote, List.isPrefixOf?, untilQuote_append hb hq]

theorem fields?_braces (label : Text) : fields? ('{' :: label ++ ['}']) = some label := by
  have suffix : ['}'].isSuffixOf? (label ++ ['}']) = some label :=
    List.isSuffixOf?_eq_some_iff_append_eq.2 rfl
  simp [fields?, List.isPrefixOf?, suffix]

end Words

theorem isPrefixOf?_append (word t : Text) : word.isPrefixOf? (word ++ t) = some t :=
  List.isPrefixOf?_eq_some_iff_append_eq.2 rfl

theorem optional_append (word t : Text) : optional word (word ++ t) = (true, t) := by
  rw [optional, isPrefixOf?_append]

/-! ## Reading statements -/

section Statements

variable {name source target label : Text}

/-- Whether a text starts with no character that another statement than a node or an edge
starts with. -/
def StartsApart (t : Text) : Prop := ∀ c ∈ t.head?, c ∉ ['}', 'n', 's', 'l']

/-- A text that starts like no other statement is an edge or a node. -/
theorem statement?_of_startsApart {t : Text} (h : StartsApart t) :
    statement? t = (edge? t <|> node? t) := by
  cases t with
  | nil => rfl
  | cons c t =>
      have hc := h c rfl
      simp only [List.mem_cons, List.not_mem_nil, or_false, not_or] at hc
      obtain ⟨close, style, cluster, clusterLabel⟩ := hc
      have cluster : cluster? (c :: t) = none := by
        simp [cluster?, lit, List.isPrefixOf?, Ne.symm cluster]
      have clusterLabel : clusterLabel? (c :: t) = none := by
        simp [clusterLabel?, lit, List.isPrefixOf?, Ne.symm clusterLabel]
      rw [statement?, if_neg (by simp [close]), if_neg (by simp [lit, style]), cluster,
        clusterLabel]
      rfl

theorem statement?_cluster (h : IsIdentifier name) :
    statement? (lit "subgraph " ++ name ++ [' ', '{']) = some (.openCluster name) := by
  have read : cluster? (lit "subgraph " ++ name ++ [' ', '{']) = some (.openCluster name) := by
    rw [List.append_assoc, cluster?, isPrefixOf?_append]
    simp [name?_append h (rfl : isIdentifierChar ' ' = false)]
  rw [statement?, if_neg (by simp [lit]), if_neg (by simp [lit]), read]
  rfl

theorem statement?_clusterLabel (h : IsQuoted (quote label)) :
    statement? (lit "label = " ++ quote label ++ [';']) = some (.clusterLabel label) := by
  have read : clusterLabel? (lit "label = " ++ quote label ++ [';'])
      = some (.clusterLabel label) := by
    rw [List.append_assoc, clusterLabel?, isPrefixOf?_append]
    simp [quoted?_append h]
  have other : cluster? (lit "label = " ++ quote label ++ [';']) = none := by
    simp [cluster?, lit, List.isPrefixOf?]
  rw [statement?, if_neg (by simp [lit]), if_neg (by simp [lit]), other, read]
  rfl

theorem edge?_append (hs : IsIdentifier source) (ht : IsIdentifier target) (dotted : Bool) :
    edge? (source ++ lit " -> " ++ target ++ (if dotted then lit "[style=dotted]" else [])
      ++ [';']) = some (.edge ⟨source, target, dotted⟩) := by
  have blank : isIdentifierChar ' ' = false := rfl
  have arrow : ∀ t, name? (source ++ (lit " -> " ++ t)) = some (source, lit " -> " ++ t) :=
    fun t => name?_append hs blank
  simp only [List.append_assoc, edge?, arrow, Option.bind_eq_bind, Option.bind_some,
    isPrefixOf?_append]
  cases dotted with
  | false =>
      have semicolon : isIdentifierChar ';' = false := rfl
      simp [name?_append ht semicolon, optional, lit, List.isPrefixOf?]
  | true =>
      have bracket : ∀ t, name? (target ++ (lit "[style=dotted]" ++ t))
          = some (target, lit "[style=dotted]" ++ t) := fun t => name?_append ht rfl
      simp [bracket, optional_append]

/-- The quotes around a record are its only bare ones. -/
theorem isQuoted_record {n : Nat} (h : FieldText n label) : IsQuoted (record label) := by
  obtain ⟨marks, hb, hq, hn, -⟩ := h
  refine ⟨'{' :: label ++ ['}'], '{' :: marks ++ ['}'], rfl, ?_, by simp [hq], by simp [hn]⟩
  rw [List.cons_append, bare_cons (by decide), bare_append hb]
  rfl

theorem quoted?_record {n : Nat} (h : FieldText n label) (rest : Text) :
    quoted? (record label ++ rest) = some ('{' :: label ++ ['}'], rest) :=
  quoted?_append (isQuoted_record h)

theorem node?_append (hn : IsIdentifier name) (spaced red : Bool) {n : Nat}
    (hl : FieldText n label) :
    node? (name ++ (if spaced then [' '] else []) ++ lit "[shape=record,"
        ++ (if red then lit "color=red," else []) ++ lit "label=" ++ record label ++ lit "];")
      = some (.node ⟨name, red, label⟩) := by
  have named : ∀ t, name? (name ++ ((if spaced then [' '] else []) ++ (lit "[shape=record," ++ t)))
      = some (name, (if spaced then [' '] else []) ++ (lit "[shape=record," ++ t)) := by
    intro t
    cases spaced with
    | false => exact name?_append hn (rfl : isIdentifierChar '[' = false)
    | true => exact name?_append hn (rfl : isIdentifierChar ' ' = false)
  have space : ∀ t, (optional [' '] ((if spaced then [' '] else []) ++ (lit "[shape=record," ++ t))).2
      = lit "[shape=record," ++ t := by
    intro t
    cases spaced with
    | false => rfl
    | true => rfl
  have colour : ∀ t, optional (lit "color=red,")
      ((if red then lit "color=red," else []) ++ (lit "label=" ++ t)) = (red, lit "label=" ++ t) := by
    intro t
    cases red with
    | false => rfl
    | true => exact optional_append _ _
  simp only [List.append_assoc, node?, named, space, Option.bind_eq_bind, Option.bind_some,
    isPrefixOf?_append, colour, quoted?_record hl, fields?_braces, if_true]

/-- The node of a block or of the method is no edge. -/
theorem edge?_node (hn : IsIdentifier name) (spaced : Bool) (t : Text) :
    edge? (name ++ (if spaced then [' '] else []) ++ lit "[shape=record," ++ t) = none := by
  have noArrow : ∀ u, (lit " -> ").isPrefixOf?
      ((if spaced then [' '] else []) ++ (lit "[shape=record," ++ u)) = none := by
    intro u
    cases spaced with
    | false => rfl
    | true => rfl
  have named : name? (name ++ ((if spaced then [' '] else []) ++ (lit "[shape=record," ++ t)))
      = some (name, (if spaced then [' '] else []) ++ (lit "[shape=record," ++ t)) := by
    cases spaced with
    | false => exact name?_append hn (rfl : isIdentifierChar '[' = false)
    | true => exact name?_append hn (rfl : isIdentifierChar ' ' = false)
  simp only [List.append_assoc, edge?, named, Option.bind_eq_bind, Option.bind_some, noArrow,
    Option.bind_none]

theorem StartsApart.append {s : Text} (h : StartsApart s) (hs : s ≠ []) (t : Text) :
    StartsApart (s ++ t) := by
  cases s with
  | nil => exact absurd rfl hs
  | cons c s => exact h

theorem statement?_edge (apart : StartsApart source) (hs : IsIdentifier source)
    (ht : IsIdentifier target) (dotted : Bool) :
    statement? (source ++ lit " -> " ++ target ++ (if dotted then lit "[style=dotted]" else [])
      ++ [';']) = some (.edge ⟨source, target, dotted⟩) := by
  have read := edge?_append hs ht dotted
  simp only [List.append_assoc] at read ⊢
  rw [statement?_of_startsApart (apart.append hs.ne_nil _), read]
  rfl

theorem statement?_node (apart : StartsApart name) (hn : IsIdentifier name) (spaced red : Bool)
    {n : Nat} (hl : FieldText n label) :
    statement? (name ++ (if spaced then [' '] else []) ++ lit "[shape=record,"
        ++ (if red then lit "color=red," else []) ++ lit "label=" ++ record label ++ lit "];")
      = some (.node ⟨name, red, label⟩) := by
  have noEdge := edge?_node hn spaced ((if red then lit "color=red," else [])
    ++ (lit "label=" ++ (record label ++ lit "];")))
  have read := node?_append hn spaced red hl
  simp only [List.append_assoc] at noEdge read ⊢
  rw [statement?_of_startsApart (apart.append hn.ne_nil _), noEdge, read]
  rfl

end Statements

/-! ## Reading rows -/

/-- Whether a text is one line that is read as a statement and starts with no tab. -/
structure Reads (t : Text) (s : Statement) : Prop where
  /-- It is read so. -/
  read : statement? t = some s
  /-- It is one line. -/
  line : '\n' ∉ t
  /-- It does not start with a tab. -/
  start : t.head? ≠ some '\t'

/-- Whether a text is one line that is read as a row. -/
structure ReadsRow (t : Text) (r : Row) : Prop where
  /-- It is read so. -/
  read : row? t = some r
  /-- It is one line. -/
  line : '\n' ∉ t

theorem Reads.row {t : Text} {s : Statement} (h : Reads t s) (k : Nat) :
    ReadsRow (tabbed k t) ⟨k, s⟩ := by
  have tabs : ∀ c ∈ List.replicate k '\t', decide (c = '\t') = true := by
    intro c hc
    simp [List.eq_of_mem_replicate hc]
  have rest : t.takeWhile (· = '\t') = [] ∧ t.dropWhile (· = '\t') = t := by
    cases t with
    | nil => exact ⟨rfl, rfl⟩
    | cons c t =>
        have hc : c ≠ '\t' := fun same => h.start (congrArg some same)
        exact ⟨List.takeWhile_cons_of_neg (by simp [hc]),
          List.dropWhile_cons_of_neg (by simp [hc])⟩
  refine ⟨?_, by simpa [tabbed, List.mem_replicate] using h.line⟩
  rw [row?, tabbed, List.dropWhile_append_of_pos tabs, List.takeWhile_append_of_pos tabs, rest.1,
    rest.2, h.read, List.append_nil, List.length_replicate]
  rfl

theorem rows?_eq {lines : List Text} {rows : List Row} (h : List.Forall₂ ReadsRow lines rows) :
    rows? lines = some rows := by
  induction h with
  | nil => rfl
  | cons row _ ih =>
      rw [rows?, row.read, ih]
      rfl

theorem line_of_readsRow {lines : List Text} {rows : List Row}
    (h : List.Forall₂ ReadsRow lines rows) : ∀ l ∈ lines, '\n' ∉ l := by
  induction h with
  | nil => exact fun l hl => absurd hl List.not_mem_nil
  | cons row _ ih => exact List.forall_mem_cons.2 ⟨row.line, ih⟩

/-- Lines that each end in a line break are lines with a line break between neighbours and an
empty line at the end. -/
theorem unlines_eq_intercalate : ∀ ls : List Text,
    Text.unlines ls = ['\n'].intercalate (ls ++ [[]])
  | [] => rfl
  | [l] => by simp [List.intercalate]
  | l :: l' :: ls => by
      rw [Text.unlines_cons, unlines_eq_intercalate (l' :: ls)]
      simp [List.intercalate]

/-- A text of a title line, rows and a closing brace is read back. -/
theorem ofText?_unlines {title : Text} {lines : List Text} {rows : List Row}
    (ht : IsQuoted (quote title)) (h : List.Forall₂ ReadsRow lines rows) :
    ofText? (Text.unlines
      ([lit "digraph " ++ quote title ++ [' ', '{']] ++ lines ++ [['}']])) = some ⟨title, rows⟩ := by
  let first := lit "digraph " ++ quote title ++ [' ', '{']
  have firstLine : '\n' ∉ first := by simp [first, lit, ht.line]
  have oneLine : ∀ l ∈ first :: (lines ++ [['}'], []]), '\n' ∉ l := by
    refine List.forall_mem_cons.2 ⟨firstLine, List.forall_mem_append.2 ⟨line_of_readsRow h, ?_⟩⟩
    decide
  have split : (Text.unlines ([first] ++ lines ++ [['}']])).splitOn '\n'
      = first :: (lines ++ [['}'], []]) := by
    rw [unlines_eq_intercalate, List.append_assoc, List.append_assoc]
    exact List.splitOn_intercalate '\n' oneLine (List.cons_ne_nil _ _)
  have title : title? first = some title := by
    simp only [first]
    rw [List.append_assoc, title?, isPrefixOf?_append]
    simp [quoted?_append ht]
  have inner : [['}'], []].isSuffixOf? (lines ++ [['}'], []]) = some lines :=
    List.isSuffixOf?_eq_some_iff_append_eq.2 rfl
  rw [ofText?, split]
  simp [title, inner, rows?_eq h]

end Reading

end FlowGraph.Dot
