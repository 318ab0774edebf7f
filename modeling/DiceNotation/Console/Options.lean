/-
The command line: options, each at most once and anywhere between the
formulas. The seed and the limit may also come from the environment, which is
asked only for an option that is not given. Two dashes end the options; before
them a dash alone is a formula and every other argument with a dash in front
must be an option.
-/
import DiceNotation.Cup
import DiceNotation.Text.Decimal

namespace DiceNotation.Console

structure Options where
  /-- The seed of the dice, which are random without one. -/
  seed : Option UInt64
  /-- The most dice that one formula may roll. -/
  maxRolls : UInt64
  /-- Plain text in place of Markdown. -/
  raw : Bool
  /-- A formula gives its values alone, and none if there is an error in it. -/
  strict : Bool
  deriving DecidableEq, Repr

structure CommandLine where
  options : Options
  formulas : List String
  deriving DecidableEq, Repr

/-- Why a command line cannot be followed. -/
inductive UsageError
  | unknownOption (name : String)
  | repeatedOption (name : String)
  | missingValue (name : String)
  | unwantedValue (name value : String)
  | invalidNumber (name value : String)
  deriving DecidableEq, Repr

def UsageError.message : UsageError → String
  | .unknownOption name => "unknown option " ++ name
  | .repeatedOption name => "option " ++ name ++ " is given twice"
  | .missingValue name => "option " ++ name ++ " needs a value"
  | .unwantedValue name value => "option " ++ name ++ " takes no value, not " ++ value
  | .invalidNumber name value => name ++ " is not a number that fits: " ++ value

/-- What an argument in front of the two dashes is. -/
inductive Argument
  | formula (text : String)
  | option (name : String) (value : Option String)
  deriving DecidableEq, Repr

/-- Tells options from formulas; a value may follow the name of an option and an equals sign. -/
def Argument.ofString (argument : String) : Argument :=
  match argument.toList with
  | '-' :: c :: cs =>
    match ('-' :: c :: cs).span (· != '=') with
    | (name, _ :: value) => .option (String.ofList name) (some (String.ofList value))
    | (_, []) => .option argument none
  | _ => .formula argument

/-- What the arguments so far give; the formulas have the last first. -/
structure Given where
  seed : Option UInt64
  maxRolls : Option UInt64
  raw : Bool
  strict : Bool
  formulas : List String
  deriving DecidableEq, Repr

namespace Given

def nothing : Given := ⟨none, none, false, false, []⟩

/-- The number that is the value of the named option or variable. -/
def number (name value : String) : Except UsageError UInt64 :=
  match Text.Decimal.word64? value with
  | some n => .ok n
  | none => .error (.invalidNumber name value)

/-- Takes a seed or a limit. -/
def withNumber (g : Given) (name value : String) : Except UsageError Given := do
  let n ← number name value
  if name = "--seed" then
    if g.seed.isSome then throw (.repeatedOption name)
    return { g with seed := some n }
  else
    if g.maxRolls.isSome then throw (.repeatedOption name)
    return { g with maxRolls := some n }

/-- Takes an option that has no value. -/
def withFlag (g : Given) (name : String) : Except UsageError Given :=
  if name = "--raw" then
    if g.raw then .error (.repeatedOption name) else .ok { g with raw := true }
  else
    if g.strict then .error (.repeatedOption name) else .ok { g with strict := true }

/-- Takes the arguments from left to right. -/
def withArguments (g : Given) : List String → Except UsageError Given
  | [] => .ok g
  | "--" :: rest => .ok { g with formulas := rest.reverse ++ g.formulas }
  | argument :: rest =>
    match Argument.ofString argument with
    | .formula text => withArguments { g with formulas := text :: g.formulas } rest
    | .option name value =>
      if name = "--seed" ∨ name = "--max-rolls" then
        match value, rest with
        | some value, rest => do withArguments (← g.withNumber name value) rest
        | none, value :: rest => do withArguments (← g.withNumber name value) rest
        | none, [] => .error (.missingValue name)
      else if name = "--raw" ∨ name = "--strict" then
        match value with
        | none => do withArguments (← g.withFlag name) rest
        | some value => .error (.unwantedValue name value)
      else .error (.unknownOption name)

end Given

/-- The variable of the environment that may hold the seed. -/
def seedName : String := "DICEBOT_SEED"

/-- The variable of the environment that may hold the limit. -/
def limitName : String := "DICEBOT_MAX_ROLLS"

/-- The value of an option: the one given, or else that of a variable of the environment. -/
def givenOr (given : Option UInt64) (environment : String → Option String) (name : String) :
    Except UsageError (Option UInt64) :=
  match given, environment name with
  | some n, _ => .ok (some n)
  | none, some value => some <$> Given.number name value
  | none, none => .ok none

/-- The command line that the arguments and the environment make. -/
def CommandLine.parse (arguments : List String) (environment : String → Option String) :
    Except UsageError CommandLine := do
  let given ← Given.nothing.withArguments arguments
  let seed ← givenOr given.seed environment seedName
  let maxRolls ← givenOr given.maxRolls environment limitName
  return ⟨⟨seed, maxRolls.getD Cup.standardLimit, given.raw, given.strict⟩, given.formulas.reverse⟩

end DiceNotation.Console
