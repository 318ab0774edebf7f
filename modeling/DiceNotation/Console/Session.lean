/-
A session at the console. Formulas that are arguments are rolled one after the
other. Without any, lines are read: a blank line rolls the lines before it as
one formula. Each formula has a cup of its own with the whole limit, and takes
the dice as the formula before it left them.
-/
import DiceNotation.Console.Options
import DiceNotation.Response.Style
import DiceNotation.Roller.Keystream

namespace DiceNotation.Console

variable {σ : Type}

/-- A piece of text for one of the two outputs. -/
inductive Chunk
  | out (text : String)
  | err (text : String)
  deriving DecidableEq, Repr

/-- The text for the output, without that for errors. -/
def outText (chunks : List Chunk) : String :=
  String.join (chunks.map fun | .out text => text | .err _ => "")

/-- The text for errors. -/
def errText (chunks : List Chunk) : String :=
  String.join (chunks.map fun | .out _ => "" | .err text => text)

namespace Options

def style (options : Options) : Style := if options.raw then .plain else .markdown

/-- The answer to one formula, or why it has none, and the dice after it. -/
def answer (options : Options) (r : Roller σ) (s : Source) (dice : σ) :
    Except Failure String × σ :=
  let cup := Cup.fresh (some options.maxRolls) dice
  if options.strict then
    let (values, cup) := evaluate r s cup
    (valuesText options.style <$> values, cup.dice)
  else
    let (response, cup) := respond r s cup
    (.ok (response.text options.style), cup.dice)

/-- The answer to one formula as it is printed, and the dice after it. -/
def print (options : Options) (r : Roller σ) (s : Source) (dice : σ) : Chunk × σ :=
  match options.answer r s dice with
  | (.ok text, dice) => (.out (text ++ "\n"), dice)
  | (.error failure, dice) => (.err ("Error: " ++ failure.message ++ "\n"), dice)

/-- What is printed for formulas one after the other. -/
def printAll (options : Options) (r : Roller σ) : List String → σ → List Chunk
  | [], _ => []
  | text :: texts, dice =>
    let (chunk, dice) := options.print r (.ofText text) dice
    chunk :: printAll options r texts dice

end Options

/-- The exit status after formulas that were arguments: a failure if there is any error. -/
def exitStatus (chunks : List Chunk) : UInt32 :=
  if chunks.any fun | .out _ => false | .err _ => true then 1 else 0

/-- An exchange of lines: the lines since a formula was last rolled, the last first, and the
dice. -/
structure Exchange (σ : Type) where
  pending : List (List UInt8)
  dice : σ
  deriving DecidableEq, Repr

/-- White space within ASCII. The vertical tab is not part of it. -/
def isBlankByte (b : UInt8) : Bool := b == 9 || b == 10 || b == 12 || b == 13 || b == 32

/-- What asks for a formula. -/
def prompt : Chunk := .out "> "

/-- What asks for more of a formula. -/
def morePrompt : Chunk := .out "... "

/-- The formula that the pending lines make, each with its line feed. -/
def Exchange.formula (x : Exchange σ) : Source :=
  .ofBytes (x.pending.reverse.flatMap (· ++ [10]))

/-- Takes a line, without its line feed. -/
def Exchange.line (options : Options) (r : Roller σ) (x : Exchange σ) (bytes : List UInt8) :
    List Chunk × Exchange σ :=
  if bytes.all isBlankByte then
    let (chunk, dice) := options.print r x.formula x.dice
    ([chunk, prompt], ⟨[], dice⟩)
  else ([morePrompt], { x with pending := bytes :: x.pending })

/-- Takes lines one after the other. -/
def Exchange.lines (options : Options) (r : Roller σ) (x : Exchange σ) :
    List (List UInt8) → List Chunk
  | [] => []
  | bytes :: rest =>
    let (chunks, x) := x.line options r bytes
    chunks ++ lines options r x rest

/-- The lines of an input, `start` being the front of the first, last byte first. A line feed at the
very end opens no further line. -/
def linesFrom (start : List UInt8) : List UInt8 → List (List UInt8)
  | [] => if start.isEmpty then [] else [start.reverse]
  | b :: bytes =>
    if b = 10 then start.reverse :: linesFrom [] bytes else linesFrom (b :: start) bytes

/-- What a run of the program leaves behind. -/
structure Transcript where
  chunks : List Chunk
  exit : UInt32
  deriving DecidableEq, Repr

/-- A run on a command line with dice in the state `dice`. -/
def CommandLine.run (commandLine : CommandLine) (r : Roller σ) (dice : σ) (input : List UInt8) :
    Transcript :=
  if commandLine.formulas.isEmpty then
    ⟨prompt :: Exchange.lines commandLine.options r ⟨[], dice⟩ (linesFrom [] input), 0⟩
  else
    let chunks := commandLine.options.printAll r commandLine.formulas dice
    ⟨chunks, exitStatus chunks⟩

/-- The dice of a run: those of the seed, or of the seed `random` if none is given. -/
def Options.dice (options : Options) (random : UInt64) : Keystream :=
  .ofSeed (options.seed.getD random)

end DiceNotation.Console
