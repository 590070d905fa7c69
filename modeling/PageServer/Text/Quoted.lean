/-
  PageServer.Text.Quoted — how messages and log lines quote a text.

  The text stands in double quotes. A quote, a backslash and the characters with a short
  name are written with a backslash, characters that are not printable by their code point
  in hexadecimal, all others as themselves. So a quoted text holds no bare quote and no
  line break.
-/

import PageServer.Text.Printable

namespace PageServer.Text

/-- The letter after the backslash, for the characters that have a short name. -/
def shortName? (c : Char) : Option Char :=
  if c = '\n' then some 'n'
  else if c = '\r' then some 'r'
  else if c = '\t' then some 't'
  else if c = '\x00' then some '0'
  else if c = '\\' then some '\\'
  else none

def codePointName (c : Char) : List Char :=
  '\\' :: 'u' :: '\x7b' :: (Nat.toDigits 16 c.toNat ++ ['\x7d'])

/-- One character of a quoted text. -/
def quotedChar (c : Char) : List Char :=
  if c = '"' then ['\\', '"']
  else match shortName? c with
    | some n => ['\\', n]
    | none => if isPrintable c then [c] else codePointName c

def quote (s : String) : String :=
  String.ofList ('"' :: (s.toList.flatMap quotedChar ++ ['"']))

/-- A key, with how it is stored: in place up to 15 bytes, on its own beyond. -/
def quoteKey (k : String) : String :=
  (if k.utf8ByteSize ≤ 15 then "Inline(" else "Owned(") ++ quote k ++ ")"

end PageServer.Text
