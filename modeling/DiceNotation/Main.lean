/-
The program: reads the command line, the environment and the lines on
standard input, and prints what a session says.
-/
import DiceNotation.Console.Session

namespace DiceNotation.Console

def Chunk.print : Chunk → IO Unit
  | .out text => do
    IO.print text
    (← IO.getStdout).flush
  | .err text => IO.eprint text

/-- Reads up to the next line feed. There is nothing left to read if this is `none`. -/
partial def readLine (stdin : IO.FS.Stream) (start : List UInt8) : IO (Option (List UInt8)) := do
  match (← stdin.read 1).toList with
  | [] => return if start.isEmpty then none else some start.reverse
  | b :: _ => if b = 10 then return some start.reverse else readLine stdin (b :: start)

partial def exchange (options : Options) (stdin : IO.FS.Stream) (x : Exchange Keystream) :
    IO Unit := do
  match ← readLine stdin [] with
  | none => return
  | some bytes =>
    let (chunks, x) := x.line options Keystream.source.roller bytes
    chunks.forM Chunk.print
    exchange options stdin x

/-- A word made of eight random bytes. -/
def randomWord : IO UInt64 := do
  return (← IO.getRandomBytes 8).toList.foldl (fun n b => n * 256 + b.toUInt64) 0

end DiceNotation.Console

open DiceNotation Console in
def main (arguments : List String) : IO UInt32 := do
  let seedVariable ← IO.getEnv seedName
  let limitVariable ← IO.getEnv limitName
  let environment := fun name =>
    if name = seedName then seedVariable else if name = limitName then limitVariable else none
  match CommandLine.parse arguments environment with
  | .error e =>
    IO.eprintln ("error: " ++ e.message)
    return 2
  | .ok commandLine =>
    let options := commandLine.options
    let dice := options.dice (← randomWord)
    if commandLine.formulas.isEmpty then
      prompt.print
      exchange options (← IO.getStdin) ⟨[], dice⟩
      return 0
    else
      let transcript := commandLine.run Keystream.source.roller dice []
      transcript.chunks.forM Chunk.print
      return transcript.exit
