import Reconciler.EntityStore
import Reconciler.Property

/-! # Why a traversal fails

Each error names its cause; the wording is made from the cause and from the types of the objects that
it mentions.
-/

namespace Reconciler

/-- What would have needed unloaded content. -/
inductive LazyCause where
  | elements
  | entity (identifier : Value)
deriving DecidableEq, Repr, Inhabited

def LazyCause.reason (heap : Heap) : LazyCause → String
  | elements => "cannot reconcile elements onto an unloaded container"
  | entity identifier => "entity " ++ heap.describe identifier ++ " is not loaded"

theorem LazyCause.reason_of_types {left right : Heap}
    (types : ∀ id, (left.node id).type = (right.node id).type) (cause : LazyCause) :
    cause.reason left = cause.reason right := by
  cases cause with
  | elements => rfl
  | entity identifier => simp only [reason, Heap.describe_of_types types]

inductive ReconcileError where
  | unsavedTransient (type : TypeName)
  | nullIdentifier (type : TypeName)
  | entityNotFound (type : TypeName) (identifier : Value)
  | uninitialized (type : TypeName) (cause : LazyCause)
  | versionMismatch (type : TypeName) (property : String) (detached authoritative : Value)
  | access (error : PropertyError)
  | store (error : StoreError)
deriving DecidableEq, Repr, Inhabited

def ReconcileError.message (heap : Heap) : ReconcileError → String
  | unsavedTransient type => "cannot look up unsaved transient instance of " ++ type.name
  | nullIdentifier type => "authoritative " ++ type.name ++ " has a null identifier"
  | entityNotFound type identifier =>
      "no " ++ type.name ++ " with identifier " ++ heap.describe identifier
  | uninitialized type cause =>
      type.name ++ " is an uninitialized placeholder: " ++ cause.reason heap
  | versionMismatch type property detached authoritative =>
      "version mismatch on " ++ type.name ++ "." ++ property ++ ": detached " ++
        heap.describe detached ++ ", authoritative " ++ heap.describe authoritative
  | access error => error.message heap
  | store error => "store error: " ++ error.message

/-- What an error says of an object is its type. -/
theorem ReconcileError.message_of_types {left right : Heap}
    (types : ∀ id, (left.node id).type = (right.node id).type) (error : ReconcileError) :
    error.message left = error.message right := by
  unfold message
  cases error with
  | entityNotFound => simp only [Heap.describe_of_types types]
  | uninitialized type cause => simp only [cause.reason_of_types types]
  | versionMismatch => simp only [Heap.describe_of_types types]
  | access error => exact error.message_of_types types
  | _ => rfl

end Reconciler
