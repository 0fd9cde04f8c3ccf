import Reconciler.Accessors
import Reconciler.BreadthFirst.Reachability
import Reconciler.Config.Document
import Reconciler.Heap.Reach
import Reconciler.Proofs.Aliasing.Slots
import Reconciler.Proofs.Carried
import Reconciler.Proofs.Clone.Source
import Reconciler.Proofs.Counterparts
import Reconciler.Proofs.Discards
import Reconciler.Proofs.Dropped
import Reconciler.Proofs.Footprint
import Reconciler.Proofs.Identifiers
import Reconciler.Proofs.Inheritance
import Reconciler.Proofs.Interrupted
import Reconciler.Proofs.Isomorphism
import Reconciler.Proofs.Lengths
import Reconciler.Proofs.Lineup
import Reconciler.Proofs.Lookups
import Reconciler.Proofs.Offers
import Reconciler.Proofs.Operations
import Reconciler.Proofs.Placeholders
import Reconciler.Proofs.References
import Reconciler.Proofs.Remembering
import Reconciler.Proofs.Roster.Engine
import Reconciler.Proofs.SelfMerge
import Reconciler.Proofs.Severed.Engine
import Reconciler.Proofs.SingleResult
import Reconciler.Proofs.Specificity
import Reconciler.Proofs.Staleness
import Reconciler.Proofs.Termination
import Reconciler.Proofs.Undeclared.Engine
import Reconciler.Proofs.Unloaded
import Reconciler.Proofs.Unmanaged
import Reconciler.Proofs.Versions.Checked
import Reconciler.Schema.Draft
import Reconciler.Traversal.Frame
