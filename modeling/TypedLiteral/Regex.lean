/-! Regular expressions as written text. A constructor is one written form, so groups stand where
they are written and nowhere else. -/
namespace TypedLiteral

inductive Regex
  | empty
  | char (c : Char)
  | escaped (c : Char)
  | eitherOf (a b : Char)
  | digit
  | blank
  /-- Any character but the line feed. -/
  | anyChar
  | andThen (first second : Regex)
  | orElse (first second : Regex)
  | optional (body : Regex)
  | star (body : Regex)
  | plus (body : Regex)
  | group (body : Regex)
  /-- A group that is not captured. -/
  | plainGroup (body : Regex)
deriving DecidableEq

namespace Regex

def write : Regex → List Char
  | .empty => []
  | .char c => [c]
  | .escaped c => ['\\', c]
  | .eitherOf a b => ['[', a, b, ']']
  | .digit => ['[', '0', '-', '9', ']']
  | .blank => ['\\', 's']
  | .anyChar => ['.']
  | .andThen first second => first.write ++ second.write
  | .orElse first second => first.write ++ '|' :: second.write
  | .optional body => body.write ++ ['?']
  | .star body => body.write ++ ['*']
  | .plus body => body.write ++ ['+']
  | .group body => '(' :: (body.write ++ [')'])
  | .plainGroup body => '(' :: '?' :: ':' :: (body.write ++ [')'])

def chain : List Regex → Regex
  | [] => .empty
  | [part] => part
  | part :: parts => .andThen part (chain parts)

def choice : List Regex → Regex
  | [] => .empty
  | [part] => part
  | part :: parts => .orElse part (choice parts)

/-- The characters that need a backslash to stand for themselves everywhere. -/
def special : List Char :=
  ['\\', '.', '+', '*', '?', '(', ')', '|', '[', ']', '\x7b', '\x7d', '^', '$', '#', '&', '-', '~']

def literal (text : List Char) : Regex :=
  chain (text.map fun c => if special.contains c then .escaped c else .char c)

end Regex
end TypedLiteral
