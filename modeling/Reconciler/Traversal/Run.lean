import Reconciler.Traversal.Apply

/-! # Running a traversal

A request is answered by one step, which asks the same question of its parts. Fuel bounds how deep the
steps may nest; it comes from the size of the world, so no caller sees it.
-/

namespace Reconciler

/-- One step of the traversal: `ask` answers the requests for the parts. -/
def step (setting : Setting) (ask : Request → Action Value) : Request → Action Value
  | .disconnect value => disconnectValue setting (fun part => ask (.disconnect part)) value
  | .apply detached => applyValue ask detached
  | .applyTo detached authoritative => applyValueTo setting ask detached authoritative

/-- Answer a request and note it in the journal. -/
def answer (setting : Setting) : (fuel : Nat) → Request → Action Value
  | 0, _ => Action.stop .exhausted
  | fuel + 1, request => do
      Action.note (.asked request)
      let result ← step setting (answer setting fuel) request
      Action.note (.answered request result)
      return result

namespace Setting

/-- Answer a request in a traversal that goes on. -/
def run (setting : Setting) (request : Request) : Action Value := fun world =>
  answer setting (world.fuel setting) request world

/-- Answer a request in a traversal of its own. -/
def runFresh (setting : Setting) (request : Request) : Action Value := fun world =>
  setting.run request world.rested

/-- Detach a graph from the store. -/
def disconnect (setting : Setting) (value : Value) : Action Value :=
  setting.runFresh (.disconnect value)

/-- Bring the store up to date with a detached graph. -/
def apply (setting : Setting) (detached : Value) : Action Value :=
  setting.runFresh (.apply detached)

/-- Bring a known authoritative graph up to date. -/
def applyTo (setting : Setting) (detached authoritative : Value) : Action Value :=
  setting.runFresh (.applyTo detached authoritative)

/-- Bring the graph that `lookUp` finds up to date. Null is not looked up. -/
def applyWith (setting : Setting) (detached : Value)
    (lookUp : EntityStore → Heap → Except StoreError Value) : Action Value :=
  if detached.isNull then setting.applyTo detached .null
  else do
    let authoritative ← Action.consult lookUp
    setting.applyTo detached authoritative

/-- What one handler makes of a value in a traversal that goes on. -/
def rebuildWith (setting : Setting) (handler : Handler) (request : Value → Request)
    (value : Value) : Action Value :=
  handler.rebuildValue (fun part => setting.run (request part)) value

/-- What one handler makes of a pair of values in a traversal that goes on. -/
def mergeWith (setting : Setting) (handler : Handler) (detached authoritative : Value) :
    Action Value :=
  handler.mergeValue setting setting.run detached authoritative

end Setting

/-- An empty value of the same shape: containers become new empty ones, lazy handles null. -/
def Handler.createEmpty (handler : Handler) (template : Value) : Action Value :=
  match handler, template with
  | .null, _ => return .null
  | .collection, .object id | .map, .object id | .array, .object id => do
      return .object (← Action.allocate (← Action.nodeOf id).emptyLike)
  | _, _ => return template

end Reconciler
