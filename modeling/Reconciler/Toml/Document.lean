import Reconciler.Toml.Value

/-! # Documents

A document is read line by line: blank lines, headers that open a table, and keys with values for the
table opened last. A value may take more lines than one. Every defect refuses the whole document.
-/

namespace Reconciler.Toml

/-- What has been read of a document: the tables, and the path of the one opened last. -/
structure Document where
  entries : Entries := []
  opened : List String := []

namespace Document

/-- Open the table of a header, or the next table of an array. -/
def openAt? (document : Document) (define? : Entries → String → Option Entries) (key : Key) :
    Option Document := do
  let entries ← document.entries.atHeader? (define? · key.name) key.path
  return ⟨entries, key.path ++ [key.name]⟩

/-- What stands on a line, without blanks and a comment at its end. -/
def line (document : Document) (text : List Char) : Option (Document × List Char) :=
  match text with
  | '[' :: '[' :: rest => do
      let (key, rest) ← key rest
      match rest with
      | ']' :: ']' :: rest => return (← document.openAt? Entries.openNext? key, rest)
      | _ => none
  | '[' :: rest => do
      let (key, rest) ← key rest
      match rest with
      | ']' :: rest => return (← document.openAt? Entries.openTable? key, rest)
      | _ => none
  | text =>
      if (afterLine? text).isSome then some (document, text)
      else do
        let ((key, item), rest) ← assignment (value depthLimit) text
        let entries ← document.entries.atHeader? (·.defineDotted? key item) document.opened
        return ({ document with entries }, rest)

/-- Read lines up to the end of the text. -/
def lines (document : Document) (text : List Char) : Option Document :=
  if text.isEmpty then some document
  else
    match document.line (skipBlanks text) with
    | none => none
    | some (document, rest) =>
        match afterLine? rest with
        | none => none
        | some next =>
            if next.length < text.length then document.lines next else none
termination_by text.length
decreasing_by assumption

/-- The entries of a document. A byte order mark may stand in front of it. -/
def parse? (text : String) : Option Entries :=
  match text.toList with
  | '\ufeff' :: rest => (lines {} rest).map Document.entries
  | text => (lines {} text).map Document.entries

end Document

end Reconciler.Toml
