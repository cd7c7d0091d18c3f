import FlowGraph.Text.Quoted

/-!
# Tokens of a listing

A listing is made of strings, names, numbers, signs and twelve keywords.  A
*terminal* is one of these classes and a *token* is a terminal with the text it was
read from.
-/

namespace FlowGraph.Listing

/-! ## Keywords -/

/-- A keyword. -/
inductive Keyword where
  | method
  | flags | returns | args | attrs | nocode | entry | block | region | handler
  | insn
  /-- The keyword before the else target of a conditional branch. -/
  | elseTo
deriving DecidableEq, Repr

namespace Keyword

/-- The word of a keyword. -/
def word : Keyword → Text
  | method => lit "method"
  | flags => lit "flags"
  | returns => lit "returns"
  | args => lit "args"
  | attrs => lit "attrs"
  | nocode => lit "nocode"
  | entry => lit "entry"
  | block => lit "block"
  | region => lit "region"
  | handler => lit "handler"
  | insn => lit "insn"
  | elseTo => lit "else"

/-- Every keyword. -/
def all : List Keyword :=
  [method, flags, returns, args, attrs, nocode, entry, block, region, handler, insn, elseTo]

theorem mem_all (k : Keyword) : k ∈ all := by cases k <;> decide

/-- Whether the keyword starts an item of a method. -/
def startsItem : Keyword → Bool
  | method | insn | elseTo => false
  | _ => true

end Keyword

/-! ## Terminals -/

/-- A class of tokens. -/
inductive Terminal where
  | string | name | int
  | lbrace | rbrace | lsqb | rsqb | comma | atSign | arrow
  | keyword (k : Keyword)
deriving DecidableEq, Repr

namespace Terminal

/-- The signs and their texts. -/
def signs : List (Terminal × Text) :=
  [(lbrace, ['{']), (rbrace, ['}']), (lsqb, ['[']), (rsqb, [']']), (comma, [',']),
   (atSign, ['@']), (arrow, ['-', '>'])]

/-- Every terminal. -/
def all : List Terminal :=
  [string, name, int, lbrace, rbrace, lsqb, rsqb, comma, atSign, arrow]
    ++ Keyword.all.map keyword

theorem mem_all (t : Terminal) : t ∈ all := by
  cases t with
  | keyword k => exact List.mem_append_right _ (List.mem_map_of_mem (Keyword.mem_all k))
  | _ => decide

/-- Whether the terminal is a keyword. -/
def isKeyword : Terminal → Bool
  | keyword _ => true
  | _ => false

/-- The name of a terminal in messages.  The arrow has none of its own and is given the
one passed. -/
def label (arrowLabel : Text) : Terminal → Text
  | string => lit "STRING"
  | name => lit "NAME"
  | int => lit "INT"
  | lbrace => lit "LBRACE"
  | rbrace => lit "RBRACE"
  | lsqb => lit "LSQB"
  | rsqb => lit "RSQB"
  | comma => lit "COMMA"
  | atSign => lit "AT"
  | arrow => arrowLabel
  | keyword k => k.word.map Char.toUpper

/-- The name of the arrow where it is named as a terminal. -/
def arrowName : Text := lit "__ANON_0"

end Terminal

/-! ## Tokens -/

/-- A terminal with the text it was read from. -/
structure Token where
  /-- The class of the token. -/
  terminal : Terminal
  /-- Its text, of a string with the quotes. -/
  lexeme : Text
deriving DecidableEq, Repr

/-- A token as messages show it. -/
def showToken (label lexeme : Text) : Text :=
  lit "Token(" ++ Text.quoted label ++ lit ", " ++ Text.quoted lexeme ++ lit ")"

/-- A token as messages show it. -/
def Token.shown (t : Token) : Text := showToken (t.terminal.label Terminal.arrowName) t.lexeme

end FlowGraph.Listing
