import Clearing.Text.Hex
import Clearing.Text.Hidden

/-!
# Quoted text in messages

A message that names a text it could not use shows it between double quotes.
The quote and the backslash are escaped, four controls have a letter of their
own, and every other character that does not show is written by its number.
-/

namespace Clearing.Text

/-- A character inside a quoted text. -/
def quotedChar (c : Char) : List Char :=
  if c = '"' then ['\\', '"']
  else if c = '\\' then ['\\', '\\']
  else if c = '\t' then ['\\', 't']
  else if c = '\n' then ['\\', 'n']
  else if c = '\r' then ['\\', 'r']
  else if c.toNat = 0 then ['\\', '0']
  else if isHidden c then ['\\', 'u', '\x7b'] ++ hexDigits c.toNat ++ ['\x7d']
  else [c]

/-- A text between double quotes. -/
def quoted (text : String) : String :=
  String.ofList ('"' :: text.toList.flatMap quotedChar ++ ['"'])

end Clearing.Text
