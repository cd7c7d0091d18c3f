import FlowGraph.Listing.Token
import FlowGraph.Text.Position

/-!
# Syntax errors

Why a text is not a listing, and at which place.  A reader that stops either has a
token which it cannot use, or has none because the text ends, or finds no token that
may stand there.  In the last case the text may still hold a token of another kind.

Every message lists what could have stood at the place instead, sorted by name.
-/

namespace FlowGraph.Listing

/-- What may stand at a place of a listing. -/
structure Expected where
  /-- The terminals that may stand there. -/
  terminals : List Terminal
  /-- Whether the listing may end there. -/
  ending : Bool
deriving DecidableEq, Repr

/-- Why a text is not a listing. -/
inductive Fault where
  /-- A token was scanned that cannot be used. -/
  | unusable (token : Token) (expected : Expected)
  /-- The text ends too early. -/
  | unfinished (expected : Expected)
  /-- No token that may stand there could be scanned, but another one can. -/
  | misplaced (token : Token) (expected : Expected) (previous : Option Token)
  /-- No token at all can be scanned from this character on. -/
  | unmatched (c : Char) (excerpt : Text) (tried : List Terminal) (previous : Option Token)
deriving DecidableEq, Repr

/-- Why and where a text is not a listing. -/
structure SyntaxError where
  /-- The place. -/
  position : Text.Position
  /-- The reason. -/
  fault : Fault
deriving DecidableEq, Repr

/-! ## Messages -/

/-- The name of the end of the text in messages. -/
def endName : Text := lit "$END"

/-- The arrow between double quotes. -/
def quotedArrow : Text := lit "\"->\""

/-- The names of terminals, sorted. -/
def sortedNames (arrowLabel : Text) (e : Expected) : List Text :=
  ((if e.ending then [endName] else []) ++ e.terminals.map (Terminal.label arrowLabel)).mergeSort
    Text.notAfter

/-- The part of a message that lists what could have stood at the place. -/
def expectation (arrowLabel : Text) (e : Expected) : Text :=
  lit "Expected one of: \n"
    ++ (sortedNames arrowLabel e).flatMap fun n => lit "\t* " ++ n ++ ['\n']

/-- The first line of a message about a token. -/
def tokenLine (p : Text.Position) (shown : Text) : Text :=
  lit "Unexpected token " ++ shown ++ lit " at line " ++ Text.natural p.line
    ++ lit ", column " ++ Text.natural p.column ++ lit ".\n"

/-- The message of a syntax error. -/
def SyntaxError.message (e : SyntaxError) : Text :=
  match e.fault with
  | .unusable token expected =>
      tokenLine e.position token.shown ++ expectation Terminal.arrowName expected
  | .unfinished expected =>
      tokenLine e.position (showToken endName []) ++ expectation Terminal.arrowName expected
  | .misplaced token expected previous =>
      let shown := match previous with
        | some p => p.shown
        | none => lit "None"
      tokenLine e.position token.shown ++ expectation quotedArrow expected
        ++ lit "Previous tokens: [" ++ shown ++ lit "]\n"
  | .unmatched c excerpt tried previous =>
      lit "No terminal matches '" ++ c :: lit "' in the current parser context, at line "
        ++ Text.natural e.position.line ++ lit " col " ++ Text.natural e.position.column
        ++ lit "\n\n" ++ excerpt ++ expectation quotedArrow ⟨tried, false⟩
        ++ (match previous with
            | some p => lit "\nPrevious tokens: " ++ p.shown ++ ['\n']
            | none => [])

end FlowGraph.Listing
