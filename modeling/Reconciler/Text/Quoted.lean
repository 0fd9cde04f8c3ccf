import Reconciler.Text.Unprintable

/-! # Quoted text

Quoted text stands between double quotes. A quote, a backslash and the four characters with a short
escape of their own are written with a backslash, everything without a picture of its own by its code
point, and all other characters as they are.
-/

namespace Reconciler.Quoted

/-- The code point in lower-case hexadecimal between braces. -/
def codePoint (char : Char) : List Char :=
  ['\\', 'u', '\x7b'] ++ Nat.toDigits 16 char.toNat ++ ['\x7d']

/-- How one character is written inside the quotes. -/
def escape (char : Char) : List Char :=
  if char = '"' then ['\\', '"']
  else if char = '\\' then ['\\', '\\']
  else if char = '\n' then ['\\', 'n']
  else if char = '\r' then ['\\', 'r']
  else if char = '\t' then ['\\', 't']
  else if char = '\x00' then ['\\', '0']
  else if Unprintable.contains char then codePoint char
  else [char]

def quote (text : String) : String :=
  String.ofList ('"' :: text.toList.flatMap escape ++ ['"'])

end Reconciler.Quoted
