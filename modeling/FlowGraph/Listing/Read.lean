import FlowGraph.Listing.Load
import FlowGraph.Listing.Scan
import FlowGraph.Listing.State
import FlowGraph.Listing.SyntaxError

/-!
# Reading a listing

`read` turns a text into the trees of its methods.  It scans one token after another,
each among the terminals that the reader's state tries, until the text ends.

`parse` gives the methods that a text describes, or says why the text is not a listing
or why one of its methods makes no sense.  The whole text is read before the first method
is loaded.
-/

namespace FlowGraph.Listing

/-! ## From text to trees -/

/-- The reader between two tokens. -/
structure Reader where
  /-- Where in the grammar the reader is. -/
  state : State := .top []
  /-- What the last token ended. -/
  juncture : Juncture := .plain
  /-- The last token, and the text from its start on. -/
  last : Option (Token × Text) := none

namespace Reader

/-- Whether the scanner tries this terminal. -/
def tries (r : Reader) (t : Terminal) : Bool := r.state.lexable r.juncture t

/-- What may stand next. -/
def expected (r : Reader) : Expected :=
  ⟨Terminal.all.filter r.state.accepts, r.state.result?.isSome⟩

/-- The terminals named if no token can be scanned.  Among the terminals tried, keywords
are left to the name where that is tried too. -/
def named (r : Reader) : List Terminal :=
  (Terminal.all.filter r.tries).filter fun t => !(r.tries .name && t.isKeyword)

/-- The last token. -/
def previous (r : Reader) : Option Token := r.last.map Prod.fst

/-- The reason why no token that the reader tries starts the rest of a text. -/
def unscannable (r : Reader) (text : Text) (c : Char) (rest : Text) : Fault :=
  match scan (fun _ => true) (c :: rest) with
  | some (token, _) => .misplaced token r.expected r.previous
  | none => .unmatched c (Text.excerpt text (c :: rest)) r.named r.previous

/-- The place at which a text that ends too early is at fault: the start of its last
token. -/
def endPosition (r : Reader) (text : Text) : Text.Position :=
  match r.last with
  | some (_, start) => Text.positionOf text start
  | none => {}

/-- Reads on to the end of the rest of a text. -/
def finish (r : Reader) (text rest : Text) : Except SyntaxError (List MethodTree) :=
  match _skipped : skip false rest with
  | [] =>
      match r.state.result? with
      | some trees => .ok trees
      | none => .error ⟨r.endPosition text, .unfinished r.expected⟩
  | c :: cs =>
      match _scanned : scan r.tries (c :: cs) with
      | none => .error ⟨Text.positionOf text (c :: cs), r.unscannable text c cs⟩
      | some (token, after) =>
          match r.state.step token with
          | none => .error ⟨Text.positionOf text (c :: cs), .unusable token r.expected⟩
          | some state =>
              finish ⟨state, r.state.juncture token.terminal, some (token, c :: cs)⟩ text after
termination_by rest.length
decreasing_by
  have consumed := length_scan_lt _scanned
  have kept := length_skip_le false rest
  rw [_skipped] at kept
  omega

end Reader

/-- The methods of a listing, before references are resolved. -/
def read (text : Text) : Except SyntaxError (List MethodTree) := Reader.finish {} text text

/-! ## From text to methods -/

/-- Why a text gives no methods. -/
inductive ListingError where
  /-- The text is not a listing. -/
  | malformed (e : SyntaxError)
  /-- A method makes no sense. -/
  | senseless (e : LoadError)
deriving DecidableEq, Repr

/-- The message of an error. -/
def ListingError.message : ListingError → Text
  | malformed e => e.message
  | senseless e => e.message

/-- The methods that trees describe. -/
def load (trees : List MethodTree) : Except LoadError (List Method) :=
  collect MethodTree.load trees

/-- The methods that a text describes. -/
def parse (text : Text) : Except ListingError (List Method) :=
  match read text with
  | .error e => .error (.malformed e)
  | .ok trees =>
      match load trees with
      | .error e => .error (.senseless e)
      | .ok methods => .ok methods

end FlowGraph.Listing
