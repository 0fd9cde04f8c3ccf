import Reconciler.Toml.Key

/-! # Tables

A table is defined in one place. A header may define it after its subtables; dotted keys extend the
tables that dotted keys have made and no others; a repeated array header starts the next table of the
array. What breaks these rules is refused, and so is a key that is given twice.

Only booleans keep their value. All other values are only kept apart from tables.
-/

namespace Reconciler.Toml

/-- How a table came to be. Headers make explicit tables; the tables on the way to a header or to a
dotted key are made along with it. -/
inductive Definition where
  | explicit
  | onHeaderPath
  | dotted
deriving DecidableEq, Repr, Inhabited

inductive Item where
  | boolean (flag : Bool)
  | plain
  | table (definition : Definition) (entries : List (String × Item))
  /-- The tables of an array of tables, the last one first. -/
  | tables (last : List (String × Item)) (earlier : List (List (String × Item)))
deriving Repr, Inhabited

abbrev Entries := List (String × Item)

namespace Entries

def get? (entries : Entries) (key : String) : Option Item :=
  (entries.find? (fun entry => entry.1 == key)).map Prod.snd

/-- Bind a key anew, wherever it stands. -/
def put (entries : Entries) (key : String) (item : Item) : Entries :=
  entries.filter (fun entry => entry.1 != key) ++ [(key, item)]

/-- Define a key that is not defined yet. -/
def define? (entries : Entries) (key : String) (item : Item) : Option Entries :=
  match entries.get? key with
  | none => some (entries.put key item)
  | some _ => none

/-- Change the table that dotted keys lead to, making the tables on the way. -/
def atDotted? (change : Entries → Option Entries) : List String → Entries → Option Entries
  | [], entries => change entries
  | key :: path, entries =>
      match entries.get? key with
      | none => return entries.put key (.table .dotted (← atDotted? change path []))
      | some (.table .dotted inner) =>
          return entries.put key (.table .dotted (← atDotted? change path inner))
      | some (.table .onHeaderPath inner) =>
          match path with
          | [] => none
          | _ => return entries.put key (.table .onHeaderPath (← atDotted? change path inner))
      | some (.tables last earlier) =>
          match path with
          | [] => none
          | _ => return entries.put key (.tables (← atDotted? change path last) earlier)
      | some _ => none

/-- Define a value under a dotted key. -/
def defineDotted? (entries : Entries) (key : Key) (item : Item) : Option Entries :=
  atDotted? (·.define? key.name item) key.path entries

/-- Change the table that a header path leads to, making the tables on the way. In an array of tables
the path goes through the last one. -/
def atHeader? (change : Entries → Option Entries) : List String → Entries → Option Entries
  | [], entries => change entries
  | key :: path, entries =>
      match entries.get? key with
      | none => return entries.put key (.table .onHeaderPath (← atHeader? change path []))
      | some (.table definition inner) =>
          return entries.put key (.table definition (← atHeader? change path inner))
      | some (.tables last earlier) =>
          return entries.put key (.tables (← atHeader? change path last) earlier)
      | some _ => none

/-- Define the table of a header. -/
def openTable? (entries : Entries) (key : String) : Option Entries :=
  match entries.get? key with
  | none => some (entries.put key (.table .explicit []))
  | some (.table .onHeaderPath inner) => some (entries.put key (.table .explicit inner))
  | some _ => none

/-- Start the next table of an array of tables. -/
def openNext? (entries : Entries) (key : String) : Option Entries :=
  match entries.get? key with
  | none => some (entries.put key (.tables [] []))
  | some (.tables last earlier) => some (entries.put key (.tables [] (last :: earlier)))
  | some _ => none

end Entries

end Reconciler.Toml
