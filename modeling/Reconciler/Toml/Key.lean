import Reconciler.Toml.Quoted

/-! # Keys

A key is one part or several with dots between them. A part is bare or quoted on one line, and blanks
may stand around it.
-/

namespace Reconciler.Toml

/-- A key: the path to a table and the name in it. -/
structure Key where
  path : List String
  name : String
deriving DecidableEq, Repr, Inhabited

/-- No key has more parts than this, and no value stands in more brackets. -/
def depthLimit : Nat := 79

def isBareChar (char : Char) : Bool := char.isAlphanum || char == '_' || char == '-'

/-- One part of a key. -/
def keyPart : Reader String
  | '"' :: rest => (basicText rest).map fun (part, rest) => (String.ofList part, rest)
  | '\x27' :: rest => (literalText rest).map fun (part, rest) => (String.ofList part, rest)
  | text =>
      let (part, rest) := (text.takeWhile isBareChar, text.dropWhile isBareChar)
      if part.isEmpty then none else some (String.ofList part, rest)

/-- Up to `limit` parts of a key and the blanks around them. -/
def keyParts : (limit : Nat) → Reader Key
  | 0, _ => none
  | limit + 1, text => do
      let (part, rest) ← keyPart (skipBlanks text)
      match skipBlanks rest with
      | '.' :: next => do
          let (key, rest) ← keyParts limit next
          return ({ key with path := part :: key.path }, rest)
      | rest => return (⟨[], part⟩, rest)

def key : Reader Key := keyParts depthLimit

end Reconciler.Toml
