import Reconciler.Toml.Key
import Reconciler.Toml.Scalar
import Reconciler.Toml.Table

/-! # Values

A value is a quoted text, one word, an array or an inline table. Arrays may go over several lines and end
with a comma; inline tables may do neither.
-/

namespace Reconciler.Toml

/-- How the members between two brackets are written. -/
structure Brackets where
  close : Char
  skip : List Char → List Char
  endsWithComma : Bool

def arrayBrackets : Brackets where
  close := ']'
  skip := skipGap false
  endsWithComma := true

def inlineTableBrackets : Brackets where
  close := '}'
  skip := skipBlanks
  endsWithComma := false

namespace Brackets

/-- Read members up to the closing bracket, handing a state from each to the next. Text that does not
get shorter from one comma to the next is refused. -/
def members {σ : Type} (brackets : Brackets) (member : σ → Reader σ) (mayClose : Bool) (state : σ)
    (text : List Char) : Option (σ × List Char) :=
  let front := brackets.skip text
  if mayClose && front.head? == some brackets.close then some (state, front.tail)
  else
    match member state front with
    | none => none
    | some (state, rest) =>
        match brackets.skip rest with
        | [] => none
        | mark :: next =>
            if mark == brackets.close then some (state, next)
            else if mark == ',' && next.length < text.length then
              brackets.members member brackets.endsWithComma state next
            else none
termination_by text.length
decreasing_by simp_all

end Brackets

/-- A value without members. -/
def scalar (text : List Char) : Option (Item × List Char) :=
  match afterText? text with
  | some rest => some (.plain, rest)
  | none =>
      let (content, rest) := word text
      if content == "true".toList then some (.boolean true, rest)
      else if content == "false".toList then some (.boolean false, rest)
      else if isPlainWord content then some (.plain, rest)
      else none

/-- A key, an equals sign and a value. -/
def assignment (value : Reader Item) : Reader (Key × Item) := fun text => do
  let (key, rest) ← key text
  match rest with
  | '=' :: rest => do
      let (item, rest) ← value (skipBlanks rest)
      return ((key, item), rest)
  | _ => none

/-- A member of an inline table, defined next to those before it. -/
def inlineMember (value : Reader Item) (entries : Entries) : Reader Entries := fun text => do
  let ((key, item), rest) ← assignment value text
  return (← entries.defineDotted? key item, rest)

/-- A value in which at most `depth` brackets are open at once. -/
def value : (depth : Nat) → Reader Item
  | 0 => scalar
  | depth + 1 => fun text =>
      match text with
      | '[' :: rest =>
          (arrayBrackets.members (fun _ => value depth) true .plain rest).map fun (_, rest) =>
            (.plain, rest)
      | '{' :: rest =>
          (inlineTableBrackets.members (inlineMember (value depth)) true [] rest).map fun (_, rest) =>
            (.plain, rest)
      | text => scalar text

end Reconciler.Toml
