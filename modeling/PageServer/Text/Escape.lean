/-
  PageServer.Text.Escape — string literals of declarations and helper expressions.

  A backslash protects the character after it; `\n`, `\r` and `\t` stand for the control
  characters, any other protected character for itself.
-/

namespace PageServer.Text

def escapedChar (c : Char) : List Char :=
  if c = '"' then ['\\', '"']
  else if c = '\\' then ['\\', '\\']
  else if c = '\n' then ['\\', 'n']
  else if c = '\r' then ['\\', 'r']
  else if c = '\t' then ['\\', 't']
  else [c]

def escape (s : List Char) : List Char := s.flatMap escapedChar

/-- The character a protected `c` stands for. -/
def protectedChar (c : Char) : Char :=
  if c = 'n' then '\n' else if c = 'r' then '\r' else if c = 't' then '\t' else c

/-- A backslash at the very end stands for itself. -/
def unescape : List Char → List Char
  | [] => []
  | '\\' :: c :: r => protectedChar c :: unescape r
  | c :: r => c :: unescape r

/-- The contents of a literal, escapes in place, and the text after its closing quote; `none`
    if there is no closing quote. -/
def literal? : List Char → Option (List Char × List Char)
  | [] => none
  | '"' :: r => some ([], r)
  | '\\' :: c :: r => (literal? r).map fun (inner, after) => ('\\' :: c :: inner, after)
  | c :: r => (literal? r).map fun (inner, after) => (c :: inner, after)

end PageServer.Text
