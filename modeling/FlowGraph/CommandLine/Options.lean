import FlowGraph.Dot.Document
import FlowGraph.Text.Quoted

/-!
# Options of the command line

What the arguments of a run ask for.  An argument is a *word*: a positional argument,
switches, the `--` after which all words are positional, or something that looks like a
switch and is none.

A long switch may be cut short as long as it stays the only one of that beginning.
Switches of one letter may share a word, and there may be a `=` behind the first.  A value
follows its switch as the next word, behind `=`, or right behind its letter.

`Request.ofArguments` first tells what every word is and then takes them in order.  So a
switch that is ambiguous is reported even behind a call for help, and one that is used
wrongly only if no call for help stands before it.

`usageText`, `helpText` and `refusal` are what is printed about the options.
-/

namespace FlowGraph.CommandLine

/-! ## Switches -/

/-- A switch. -/
inductive Switch where
  | help | output | regions | raw | dump | verbose | debug
deriving DecidableEq, Repr

/-- The spellings of the switches, in the order in which a help text lists them. -/
def spellings : List (Text × Switch) :=
  [(lit "-h", .help), (lit "--help", .help), (lit "-o", .output), (lit "--output", .output),
   (lit "--regions", .regions), (lit "--raw", .raw), (lit "--dump", .dump),
   (lit "-v", .verbose), (lit "--verbose", .verbose), (lit "-d", .debug), (lit "--debug", .debug)]

/-- The switch of a spelling. -/
def Switch.ofSpelling? (t : Text) : Option Switch := spellings.lookup t

/-- All spellings of a switch, with slashes between them. -/
def Switch.label (s : Switch) : Text :=
  List.intercalate ['/'] ((spellings.filter fun p => p.2 = s).map Prod.fst)

/-! ## Errors -/

/-- Why arguments are refused. -/
inductive UsageError where
  /-- A switch that is cut short could be several ones. -/
  | ambiguous (word : Text) (candidates : List Text)
  /-- A switch has a value and takes none. -/
  | unusedValue (s : Switch) (value : Text)
  /-- A switch takes a value and has none. -/
  | missingValue (s : Switch)
  /-- No listing is named. -/
  | missingListing
  /-- Some words are left over. -/
  | unrecognized (words : List Text)
deriving DecidableEq, Repr

/-- The message of an error. -/
def UsageError.message : UsageError → Text
  | ambiguous word candidates =>
      lit "ambiguous option: " ++ word ++ lit " could match "
        ++ List.intercalate (lit ", ") candidates
  | unusedValue s value =>
      lit "argument " ++ s.label ++ lit ": ignored explicit argument " ++ Text.quoted value
  | missingValue s => lit "argument " ++ s.label ++ lit ": expected one argument"
  | missingListing => lit "the following arguments are required: listing_file"
  | unrecognized words => lit "unrecognized arguments: " ++ List.intercalate [' '] words

/-! ## Words with switches -/

/-- What a word with switches ends in. -/
inductive Ending where
  /-- Nothing more, or the value of the output switch. -/
  | complete (output : Option Text)
  /-- The output switch, whose value is the next word. -/
  | awaits
deriving DecidableEq, Repr

/-- What a word is. -/
inductive Word where
  /-- A positional argument. -/
  | positional (t : Text)
  /-- The first `--`. -/
  | separator
  /-- Switches that take no value, and what they end in. -/
  | switches (ss : List Switch) (ending : Ending)
  /-- A switch that is used wrongly. -/
  | misused (e : UsageError)
  /-- No switch, though it looks like one. -/
  | unknown (t : Text)
deriving DecidableEq, Repr

/-- The word with one more switch before those it has. -/
def Word.behind (s : Switch) : Word → Word
  | switches ss ending => switches (s :: ss) ending
  | w => w

/-- The word for one switch, with or without a value. -/
def Word.ofSwitch : Switch → Option Text → Word
  | .output, none => .switches [] .awaits
  | .output, some value => .switches [] (.complete (some value))
  | s, none => .switches [s] (.complete none)
  | s, some value => .misused (.unusedValue s value)

/-- The word for a switch of one letter and the text right behind it.  The text is the
value of a switch that takes one.  Behind any other switch its first letter has to be a
switch too, and the rest of it stands right behind that one. -/
def Word.ofBundle : Switch → Text → Word
  | s, [] => .ofSwitch s none
  | .output, value => .ofSwitch .output (some value)
  | s, c :: t =>
      match Switch.ofSpelling? ['-', c] with
      | none => .misused (.unusedValue s (c :: t))
      | some s' => (Word.ofBundle s' t).behind s

/-- The word for a spelling and a value behind `=`.  Behind a single letter the value is
read like letters that stand there without the `=`. -/
def Word.ofValued (spelling : Text) (s : Switch) (value : Text) : Word :=
  if spelling.length = 2 ∧ value ≠ [] then .ofBundle s value else .ofSwitch s (some value)

/-! ## Telling words apart -/

/-- The text before the first `=`, and the text after it if there is one. -/
def splitValue (t : Text) : Text × Option Text :=
  match t.dropWhile (· ≠ '=') with
  | [] => (t, none)
  | _ :: value => (t.takeWhile (· ≠ '='), some value)

/-- Whether a text is some digits, or digits with a point before the last of them. -/
def isNumeral (t : Text) : Bool :=
  match t.dropWhile Text.isAnyDigit with
  | [] => t ≠ []
  | '.' :: fraction => fraction ≠ [] && fraction.all Text.isAnyDigit
  | _ => false

/-- A text without a line break at its end. -/
def dropFinalBreak (t : Text) : Text := if t.getLast? = some '\n' then t.dropLast else t

/-- The word that starts with `-` and is no switch.  A negative number and a word with a
blank are positional. -/
def Word.ofOther (t : Text) : Word :=
  if isNumeral (dropFinalBreak (t.drop 1)) || t.contains ' ' then .positional t else .unknown t

/-- The word that starts with `--` and spells no switch in full. -/
def Word.ofLong (t : Text) : Except UsageError Word :=
  let (name, value) := splitValue t
  match spellings.filter fun p => name.isPrefixOf p.1 with
  | [] => .ok (.ofOther t)
  | [p] => .ok (.ofSwitch p.2 value)
  | ps => .error (.ambiguous t (ps.map Prod.fst))

/-- The word that starts with one `-` and spells no switch in full. -/
def Word.ofShort (t : Text) : Word :=
  match Switch.ofSpelling? (t.take 2) with
  | some s => .ofBundle s (t.drop 2)
  | none => .ofOther t

/-- The word before the separator for an argument that starts with `-`. -/
def Word.ofDashed (t : Text) : Except UsageError Word :=
  let (name, value) := splitValue t
  match Switch.ofSpelling? name, value with
  | some s, none => .ok (.ofSwitch s none)
  | some s, some value => .ok (.ofValued name s value)
  | none, _ =>
      if t = ['-'] then .ok (.positional t)
      else if (lit "--").isPrefixOf t then Word.ofLong t
      else .ok (.ofShort t)

/-- The words for some arguments. -/
def Word.ofArguments : List Text → Except UsageError (List Word)
  | [] => .ok []
  | t :: rest =>
      if t = lit "--" then .ok (.separator :: rest.map .positional)
      else do
        let w ← if t.head? = some '-' then Word.ofDashed t else .ok (.positional t)
        let ws ← Word.ofArguments rest
        .ok (w :: ws)

/-! ## What is asked for -/

/-- What a run is to do. -/
structure Options where
  /-- The listing to read. -/
  listing : Path := {}
  /-- The directory below which graphs are written, unless the value given for it was
  dropped. -/
  output : Option Path := some {}
  /-- Which graphs are written. -/
  view : Dot.View := {}
  /-- Whether outlines are printed. -/
  dump : Bool := false
  /-- Whether skipped methods are reported. -/
  verbose : Bool := false
  /-- Whether everything is reported. -/
  debug : Bool := false
deriving DecidableEq, Repr

/-- The options after a switch without a value. -/
def Options.set (o : Options) : Switch → Options
  | .regions => { o with view := { o.view with regions := true } }
  | .raw => { o with view := { o.view with raw := true } }
  | .dump => { o with dump := true }
  | .verbose => { o with verbose := true }
  | .debug => { o with debug := true }
  | .help | .output => o

/-- What the arguments of a run ask for. -/
inductive Request where
  /-- The help text. -/
  | help
  /-- A run with these options. -/
  | run (o : Options)
deriving DecidableEq, Repr

/-- What has been taken from the words so far. -/
structure Intake where
  /-- The options set. -/
  options : Options := {}
  /-- The listing named. -/
  listing : Option Text := none
  /-- The words left over. -/
  left : List Text := []

/-- What the words amount to. -/
def Intake.finish (i : Intake) : Except UsageError Request :=
  match i.listing with
  | none => .error .missingListing
  | some t =>
      if i.left = [] then .ok (.run { i.options with listing := .ofText t })
      else .error (.unrecognized i.left)

/-- The intake with a word left over. -/
def Intake.leave (i : Intake) (t : Text) : Intake := { i with left := i.left ++ [t] }

/-- The output directory that a value names.  The value `--` is dropped, so that there is
no output directory at all. -/
def outputOf (value : Text) : Option Path :=
  if value = lit "--" then none else some (.ofText value)

/-- The intake with some switches set and the output directory named. -/
def Intake.switch (i : Intake) (ss : List Switch) (output : Option Text) : Intake :=
  let options := ss.foldl Options.set i.options
  match output with
  | some value => { i with options := { options with output := outputOf value } }
  | none => { i with options := options }

/-- Takes some words in order. -/
def Intake.take (i : Intake) : List Word → Except UsageError Request
  | [] => i.finish
  | .positional t :: .separator :: rest =>
      if i.listing.isNone then Intake.take { i with listing := some t } rest
      else Intake.take ((i.leave t).leave (lit "--")) rest
  | .positional t :: rest =>
      if i.listing.isNone then Intake.take { i with listing := some t } rest
      else Intake.take (i.leave t) rest
  | .separator :: .positional t :: rest =>
      if i.listing.isNone then Intake.take { i with listing := some t } rest
      else Intake.take ((i.leave (lit "--")).leave t) rest
  | .separator :: rest => Intake.take (i.leave (lit "--")) rest
  | .unknown t :: rest => Intake.take (i.leave t) rest
  | .misused e :: _ => .error e
  | .switches ss .awaits :: .positional t :: rest =>
      if .help ∈ ss then .ok .help else Intake.take (i.switch ss (some t)) rest
  | .switches _ .awaits :: _ => .error (.missingValue .output)
  | .switches ss (.complete output) :: rest =>
      if .help ∈ ss then .ok .help else Intake.take (i.switch ss output) rest

/-- What the arguments of a run ask for.  Option parsers differ in their conventions from release
to release.  These are the conventions of releases that drop a `--` attached to a switch.  Later
ones keep it as the value, and they split letters that share a word in another way. -/
def Request.ofArguments (arguments : List Text) : Except UsageError Request := do
  let words ← Word.ofArguments arguments
  Intake.take {} words

/-! ## Usage -/

/-- How the program is called, in short. -/
def usageText : Text :=
  lit "usage: cfgdot [-h] [-o OUTPUT] [--regions] [--raw] [--dump] [-v] [-d]\n"
    ++ lit "              listing_file\n"

/-- How the program is called, with all options. -/
def helpText : Text :=
  usageText ++ Text.unlines
    [[],
     lit "Export decompiled method control flow graphs as Graphviz DOT files",
     [],
     lit "positional arguments:",
     lit "  listing_file          Method listing to export (e.g. methods.cfg)",
     [],
     lit "options:",
     lit "  -h, --help            show this help message and exit",
     lit "  -o OUTPUT, --output OUTPUT",
     lit "                        Output directory (default: current directory)",
     lit "  --regions             Draw the structured region tree as nested clusters",
     lit "  --raw                 Print raw instructions instead of the fallback pretty",
     lit "                        printer",
     lit "  --dump                Print a plain text dump of every method",
     lit "  -v, --verbose         Verbose output",
     lit "  -d, --debug           Debug output"]

/-- What is printed if the arguments are refused. -/
def refusal (e : UsageError) : Text :=
  usageText ++ lit "cfgdot: error: " ++ e.message ++ ['\n']

end FlowGraph.CommandLine
