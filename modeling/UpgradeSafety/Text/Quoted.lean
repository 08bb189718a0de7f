import UpgradeSafety.Text.Printable

/-!
# Quoted names

How a name stands in a message: between quotes, with an escape for the quote,
the backslash and every character that is not printable.
-/

namespace UpgradeSafety.Text

/-- A character by its code point in hexadecimal. -/
def escapedByNumber (c : Char) : List Char :=
  '\\' :: 'u' :: '\x7b' :: (Nat.toDigits 16 c.toNat ++ ['\x7d'])

def quotedChar (c : Char) : List Char :=
  if c = '"' then ['\\', '"']
  else if c = '\\' then ['\\', '\\']
  else if c = '\n' then ['\\', 'n']
  else if c = '\t' then ['\\', 't']
  else if c = '\r' then ['\\', 'r']
  else if c = '\x00' then ['\\', '0']
  else if isPrintable c then [c]
  else escapedByNumber c

def quoted (name : String) : String :=
  String.ofList ('"' :: (name.toList.flatMap quotedChar ++ ['"']))

end UpgradeSafety.Text
