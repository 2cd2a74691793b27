import TypedLiteral.Text.Printable

/-! Quoted text: as a JSON string, and as it is shown inside a message. -/
namespace TypedLiteral.Text

def hexadecimal (number : Nat) : List Char :=
  Nat.toDigits 16 number

/-- JSON escapes the quote, the backslash and the controls below U+0020, five of them by letter. -/
def jsonEscape (c : Char) : List Char :=
  if c == '"' || c == '\\' then ['\\', c]
  else if c == '\n' then ['\\', 'n']
  else if c == '\r' then ['\\', 'r']
  else if c == '\t' then ['\\', 't']
  else if c.toNat == 0x08 then ['\\', 'b']
  else if c.toNat == 0x0C then ['\\', 'f']
  else if c.toNat < 0x20 then
    '\\' :: 'u' :: (List.replicate (4 - (hexadecimal c.toNat).length) '0' ++ hexadecimal c.toNat)
  else [c]

def jsonQuoted (text : List Char) : List Char :=
  '"' :: (text.flatMap jsonEscape ++ ['"'])

/-- A message escapes the quote, the backslash, four controls by letter or digit, and what else
cannot be shown by its code point. -/
def messageEscape (c : Char) : List Char :=
  if c == '"' || c == '\\' then ['\\', c]
  else if c == '\n' then ['\\', 'n']
  else if c == '\r' then ['\\', 'r']
  else if c == '\t' then ['\\', 't']
  else if c.toNat == 0 then ['\\', '0']
  else if isPrintable c then [c]
  else '\\' :: 'u' :: '\x7b' :: (hexadecimal c.toNat ++ ['\x7d'])

def messageQuoted (text : List Char) : List Char :=
  '"' :: (text.flatMap messageEscape ++ ['"'])

end TypedLiteral.Text
