import TypedLiteral.Regex
import TypedLiteral.Shape.Basic

/-! Patterns that show which literals fit a shape. They are hints: reading does not consult them,
and what they cannot tell they leave open with `.*`. -/
namespace TypedLiteral

namespace Regex

def any : Regex := .star .anyChar

def integer : Regex := chain [.optional (.char '-'), .plus .digit]

def boolean : Regex :=
  .orElse
    (chain [.eitherOf 't' 'T', .eitherOf 'r' 'R', .eitherOf 'u' 'U', .eitherOf 'e' 'E'])
    (chain [.eitherOf 'f' 'F', .eitherOf 'a' 'A', .eitherOf 'l' 'L', .eitherOf 's' 'S',
      .eitherOf 'e' 'E'])

def double : Regex :=
  chain [.optional (.char '-'), .plus .digit,
    .optional (.group (chain [.escaped '.', .plus .digit]))]

def segment : Regex :=
  chain [.optional (.char '-'), .plus .digit,
    .optional (.group (chain [.star .blank, .escaped '.', .escaped '.', .star .blank,
      .optional (.char '-'), .plus .digit]))]

/-- Elements between commas, within brackets or not. -/
def separated (element : Regex) : Regex :=
  chain [.optional (.escaped '['), .star .blank,
    .optional (.group (chain [.plainGroup element,
      .star (.group (chain [.star .blank, .char ',', .star .blank, .plainGroup element]))])),
    .star .blank, .optional (.escaped ']')]

/-- Elements that may be anything leave the collection open too. -/
def collection (element : Regex) : Regex :=
  if element = any then any else separated element

end Regex

def ScalarKind.pattern : ScalarKind → Regex
  | .text => .any
  | .integer _ => .integer
  | .boolean => .boolean
  | .double => .double

def Shape.pattern : Shape → Regex
  | .member _ members => Regex.choice (members.map fun name => Regex.literal name.toList)
  | .scalar kind => kind.pattern
  | .sequence _ _ => Regex.collection Regex.segment
  | .collection _ element => Regex.collection element.pattern
  | .unsupported _ => .any
  | .misapplied _ _ => .any

end TypedLiteral
