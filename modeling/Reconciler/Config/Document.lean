import Reconciler.Config
import Reconciler.Toml.Document

/-! # Configuration files

A file may give each switch as a boolean. A switch that it leaves out keeps its default, other keys are
ignored, and a switch with any other value is refused.
-/

namespace Reconciler.Config

/-- Set a switch as a table says. -/
def take? (entries : Toml.Entries) (config : Config) (switch : Switch) : Option Config :=
  match entries.get? switch.key with
  | none => some config
  | some (.boolean flag) => some (config.set switch flag)
  | some _ => none

def ofEntries? (entries : Toml.Entries) : Option Config :=
  Switch.all.foldlM (take? entries) {}

def parse? (text : String) : Option Config := (Toml.Document.parse? text).bind ofEntries?

end Reconciler.Config
