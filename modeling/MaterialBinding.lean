import MaterialBinding.Path.Json
import MaterialBinding.Binding.Authoring
import MaterialBinding.Resolution.Resolver
import MaterialBinding.Description.Json
import MaterialBinding.Files.Tree
import MaterialBinding.Files.Cache
import MaterialBinding.Main
import MaterialBinding.Proofs.Description.Checked
import MaterialBinding.Proofs.Metadata
import MaterialBinding.Proofs.Path.Text
import MaterialBinding.Proofs.Resolution.TieBreak
import MaterialBinding.Proofs.Stage.History
import MaterialBinding.Proofs.Stage.Tree
import MaterialBinding.Proofs.Description.ByKey
import MaterialBinding.Proofs.Description.Rebuild
import MaterialBinding.Proofs.Json.Literal
import MaterialBinding.Proofs.Json.ReadBack
import MaterialBinding.Proofs.Description.Printed
import MaterialBinding.Proofs.Stage.Saved
import MaterialBinding.Proofs.Binding.Name
import MaterialBinding.Proofs.Stage.Paired
import MaterialBinding.Proofs.Collection.Flattening
import MaterialBinding.Proofs.Collection.Precedence
import MaterialBinding.Proofs.Resolution.Subtree
import MaterialBinding.Proofs.Resolution.Alike
import MaterialBinding.Proofs.Stage.Reopened
import MaterialBinding.Proofs.Resolution.Purposes
import MaterialBinding.Proofs.Stage.Lookup
import MaterialBinding.Proofs.Stage.Frame
import MaterialBinding.Proofs.Collection.Nesting
import MaterialBinding.Proofs.Resolution.Locality
import MaterialBinding.Proofs.Resolution.Filter
import MaterialBinding.Proofs.Files.PathParts
import MaterialBinding.Proofs.Files.WellKept
import MaterialBinding.Proofs.Files.CacheHistory
import MaterialBinding.Proofs.Files.ConcurrentOpens
import MaterialBinding.Proofs.Files.NewestStage
import MaterialBinding.Proofs.Stage.AllOrNothing
import MaterialBinding.Proofs.Collection.Cycles
import MaterialBinding.Proofs.Command.Printed
import MaterialBinding.Proofs.Command.EveryPrim
import MaterialBinding.Proofs.Path.Prefix
import MaterialBinding.Proofs.Collection.Nearest
import MaterialBinding.Proofs.Collection.Overlay
import MaterialBinding.Proofs.Resolution.Inherited
import MaterialBinding.Proofs.Binding.Reader
import MaterialBinding.Proofs.Binding.Written
import MaterialBinding.Proofs.Binding.Erased
import MaterialBinding.Proofs.Description.Objects
import MaterialBinding.Proofs.Path.Reading
import MaterialBinding.Proofs.Stage.Traversal
import MaterialBinding.Proofs.Stage.Table
import MaterialBinding.Proofs.Stage.TableHistory
import MaterialBinding.Proofs.Stage.Removed
import MaterialBinding.Proofs.Stage.Defined
import MaterialBinding.Proofs.Description.Accepted
import MaterialBinding.Proofs.Description.Loading
import MaterialBinding.Proofs.Path.Cuts
import MaterialBinding.Proofs.Path.Grammar
import MaterialBinding.Proofs.Path.Order
import MaterialBinding.Proofs.Path.Extending
import MaterialBinding.Proofs.Collection.Address
import MaterialBinding.Proofs.Metadata.InsertionOrder
import MaterialBinding.Proofs.Command.Items
