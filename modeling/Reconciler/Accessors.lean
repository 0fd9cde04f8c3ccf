import Reconciler.Metadata

/-! # Common accessors

Getters that read an attribute, directly or through a small function, or answer with a constant; and
setters that store what they are given, ignore it, refuse it, check it first or count their calls.
-/

namespace Reconciler

/-- What a derived getter makes of an attribute. -/
inductive Derivation where
  | identity
  | isNull
  | length
deriving DecidableEq, Repr, Inhabited

/-- The length of a text counts characters; nothing else has one. -/
def Derivation.apply : Derivation → Value → Value
  | identity, value => value
  | isNull, value => .bool value.isNull
  | length, .text content => .int (Int64.ofNat content.length)
  | length, _ => .null

namespace Getter

def ofAttribute (name : String) : Getter := fun node => node.attr name

def constant (value : Value) : Getter := fun _ => value

def derived (name : String) (derivation : Derivation) : Getter :=
  fun node => derivation.apply (ofAttribute name node)

end Getter

namespace Setter

def toAttribute (name : String) : Setter := fun node value => { attributes := node.attributes.insert name value }

def ignore : Setter := fun node _ => { attributes := node.attributes }

/-- A value is refused before anything is changed. -/
def reject (rejection : Rejection) : Setter := fun node _ =>
  { attributes := node.attributes, rejection? := some rejection }

def refuse (explanation : String) : Setter := reject { explanation }

/-- Text must hold an at sign; other values pass. -/
def email (name : String) : Setter := fun node value =>
  match value with
  | .text content =>
      if content.toList.contains '@' then toAttribute name node value
      else reject { explanation := "invalid email address", offender? := some value } node value
  | _ => toAttribute name node value

/-- Only integers from zero up pass. -/
def nonNegative (name : String) : Setter := fun node value =>
  match value with
  | .int number =>
      if 0 ≤ number then toAttribute name node value
      else reject { explanation := "invalid balance", offender? := some value } node value
  | _ => reject { explanation := "invalid balance", offender? := some value } node value

/-- The attribute in which a counting setter counts its calls. -/
def callCount : String := "writes"

def counting (name : String) : Setter := fun node value =>
  let calls := (node.attr callCount).int?.getD 0
  { attributes := (node.attributes.insert callCount (.int (calls + 1))).insert name value }

end Setter

end Reconciler
