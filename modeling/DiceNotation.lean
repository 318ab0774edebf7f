import DiceNotation.Text.Letter
import DiceNotation.Text.Blank
import DiceNotation.Text.Quoted
import DiceNotation.Text.Decimal
import DiceNotation.Text.Utf8
import DiceNotation.Source.Encoded
import DiceNotation.Token.Lexer
import DiceNotation.Formula.Reader
import DiceNotation.Roller.Loaded
import DiceNotation.Roller.Keystream
import DiceNotation.Evaluation
import DiceNotation.Response.Style
import DiceNotation.Record
import DiceNotation.Console.Session
import DiceNotation.Main
import DiceNotation.Proofs.Acceptance
import DiceNotation.Proofs.RoundTrip
import DiceNotation.Proofs.ExactEvaluation
import DiceNotation.Proofs.Budget
import DiceNotation.Proofs.MaximalMunch
import DiceNotation.Proofs.Limits
import DiceNotation.Proofs.LiteralMarkdown
import DiceNotation.Proofs.ExitStatus
import DiceNotation.Proofs.Positions
import DiceNotation.Proofs.Lines
import DiceNotation.Proofs.Cap
import DiceNotation.Proofs.Sums
import DiceNotation.Proofs.Ranges
import DiceNotation.Proofs.Composition
import DiceNotation.Proofs.Damage
import DiceNotation.Proofs.Lookahead
import DiceNotation.Proofs.Labels
import DiceNotation.Proofs.DiceFree
import DiceNotation.Proofs.Calls
import DiceNotation.Proofs.Dialogue
import DiceNotation.Proofs.Arguments
import DiceNotation.Proofs.Numerals
