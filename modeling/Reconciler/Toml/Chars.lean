/-! # Characters, blanks and line ends

A document is read as a list of characters; each reader takes what it recognises off the front and
answers with the rest. Blanks are spaces and tabs. A line ends with a line feed, with a carriage return
before it or not.
-/

namespace Reconciler.Toml

/-- What a reader makes of the front of a document, and the rest; nothing if it does not fit. -/
abbrev Reader (α : Type) := List Char → Option (α × List Char)

def isBlank (char : Char) : Bool := char == ' ' || char == '\t'

/-- Neither a line end nor any other control; tabs are no controls. -/
def isPrintable (char : Char) : Bool := char == '\t' || (' ' ≤ char && char != '\x7f')

def isDigit (char : Char) : Bool := '0' ≤ char && char ≤ '9'

def isHexDigit (char : Char) : Bool :=
  isDigit char || ('a' ≤ char && char ≤ 'f') || ('A' ≤ char && char ≤ 'F')

/-- The value of a hexadecimal digit. -/
def digitValue (char : Char) : Nat :=
  if isDigit char then char.toNat - '0'.toNat
  else if 'a' ≤ char then char.toNat - 'a'.toNat + 10
  else char.toNat - 'A'.toNat + 10

/-- The number that digits write in a base. -/
def numberOf (base : Nat) (digits : List Char) : Nat :=
  digits.foldl (fun number digit => base * number + digitValue digit) 0

def skipBlanks (text : List Char) : List Char := text.dropWhile isBlank

/-- What follows a line end. -/
def afterLineEnd? : List Char → Option (List Char)
  | '\n' :: rest => some rest
  | '\r' :: '\n' :: rest => some rest
  | _ => none

/-- A comment reaches to the end of its line. -/
def skipComment : List Char → List Char
  | '#' :: rest => rest.dropWhile isPrintable
  | text => text

/-- What follows a line that holds nothing more than blanks and a comment. The last line of a document
needs no line end. -/
def afterLine? (text : List Char) : Option (List Char) :=
  match skipComment (skipBlanks text) with
  | [] => some []
  | rest => afterLineEnd? rest

/-- Skip blanks, line ends and comments, as between the items of an array. -/
def skipGap : (inComment : Bool) → List Char → List Char
  | _, [] => []
  | _, '\n' :: rest => skipGap false rest
  | _, '\r' :: '\n' :: rest => skipGap false rest
  | false, '#' :: rest => skipGap true rest
  | inComment, char :: rest =>
      if (if inComment then isPrintable char else isBlank char) then skipGap inComment rest
      else char :: rest

end Reconciler.Toml
