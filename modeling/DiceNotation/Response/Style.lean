/-
Styles of showing responses. A style made for a markup language is given by
how it shows text literally and how it sets a heading apart; the headings and
the order of the parts are the same in every markup.
-/
import DiceNotation.Response
import DiceNotation.Text.Markdown

namespace DiceNotation

/-- How the parts of a response are shown. -/
structure Style where
  echo : String → String
  syntaxError : SyntaxError → String
  result : (label : String) → Outcome → String

namespace Style

/-- The style for a markup in which `literal` shows text as it is and `heading` sets it apart. -/
def ofMarkup (literal heading : String → String) : Style where
  echo := fun input => heading "Rolling" ++ ": " ++ literal input
  syntaxError := fun e => heading "Syntax Error" ++ ": " ++ literal e.message
  result := fun label outcome => heading (literal label) ++ ": " ++
    match outcome with
    | .ok value => Text.Decimal.ofInt64 value
    | .error e => heading "Error" ++ ": " ++ literal e.message

/-- Text without any markup. -/
def plain : Style := ofMarkup id id

def markdown : Style := ofMarkup Text.Markdown.escape Text.Markdown.bold

end Style

/-- The lines of a response. -/
def Response.lines (style : Style) (response : Response) : List String :=
  style.echo response.echo ::
    match response.results with
    | .error e => [style.syntaxError e]
    | .ok results => results.map fun (label, outcome) => style.result label outcome

/-- The response as one text. -/
def Response.text (style : Style) (response : Response) : String :=
  "\n".intercalate (response.lines style)

/-- The values of an evaluation as one text, a line for each. -/
def valuesText (style : Style) (values : List (String × Int64)) : String :=
  "\n".intercalate (values.map fun (label, value) => style.result label (.ok value))

end DiceNotation
