import ControlPlane.Api
import ControlPlane.Cli.Arguments
import ControlPlane.Cli.Control
import ControlPlane.Cli.Daemon
import ControlPlane.Cli.Ending
import ControlPlane.Cli.Listening
import ControlPlane.Cli.Replica
import ControlPlane.Cluster
import ControlPlane.Cluster.Serve
import ControlPlane.Command
import ControlPlane.Command.Delivery
import ControlPlane.Command.Wire
import ControlPlane.Config
import ControlPlane.Config.File
import ControlPlane.Config.Form
import ControlPlane.Config.Toml
import ControlPlane.Consensus.Change
import ControlPlane.Consensus.Form
import ControlPlane.Consensus.Message
import ControlPlane.Consensus.Message.Form
import ControlPlane.Consensus.Types
import ControlPlane.Files
import ControlPlane.Http
import ControlPlane.Http.MediaType
import ControlPlane.Http.Percent
import ControlPlane.Json
import ControlPlane.Json.Any
import ControlPlane.Json.Form
import ControlPlane.Json.Ignored
import ControlPlane.Json.Number
import ControlPlane.Json.Reader
import ControlPlane.Json.Shape
import ControlPlane.Main
import ControlPlane.Node
import ControlPlane.NodeSet
import ControlPlane.Number.Decimal
import ControlPlane.Number.Hexadecimal
import ControlPlane.Number.Integer
import ControlPlane.Number.Shortest
import ControlPlane.Proofs.Command.Canonical
import ControlPlane.Proofs.Command.Inverse
import ControlPlane.Proofs.Command.RoundTrip
import ControlPlane.Proofs.Consensus.Form
import ControlPlane.Proofs.Json.Lawful
import ControlPlane.Proofs.Json.Members
import ControlPlane.Proofs.Json.Shape
import ControlPlane.Proofs.Json.Text
import ControlPlane.Proofs.SortedMap
import ControlPlane.Proofs.Storage.Agreement
import ControlPlane.Proofs.Storage.Operation
import ControlPlane.Proofs.Table.Apply
import ControlPlane.Proofs.Table.Form
import ControlPlane.Proofs.Table.WellFormed
import ControlPlane.Proofs.Text.Order
import ControlPlane.Proofs.Wire.Frame
import ControlPlane.Region
import ControlPlane.Region.Form
import ControlPlane.Region.Wire
import ControlPlane.Remote
import ControlPlane.SortedMap
import ControlPlane.State
import ControlPlane.State.Form
import ControlPlane.Storage
import ControlPlane.Storage.Disk
import ControlPlane.Storage.Record
import ControlPlane.StorageGroup
import ControlPlane.StorageGroup.Form
import ControlPlane.Table
import ControlPlane.Table.Form
import ControlPlane.Text.Quoted
import ControlPlane.Text.Unprintable
import ControlPlane.Text.Utf8
import ControlPlane.Toml.Document
import ControlPlane.Toml.Number
import ControlPlane.Toml.Text
import ControlPlane.Toml.Value
import ControlPlane.Url
import ControlPlane.Url.Address
import ControlPlane.Url.Host
import ControlPlane.Url.Path
import ControlPlane.Url.Punycode
import ControlPlane.Wire.Error
import ControlPlane.Wire.Frame
import ControlPlane.Proofs.Command.Stability
import ControlPlane.Proofs.Storage.Durability
import ControlPlane.Proofs.Storage.Batches
import ControlPlane.Proofs.Storage.Log
import ControlPlane.Proofs.State.Form
import ControlPlane.Proofs.Config.Form
import ControlPlane.Proofs.Json.Document
import ControlPlane.Proofs.Api.RegionGroups
import ControlPlane.Proofs.Http.Percent
import ControlPlane.Proofs.Url.Path
import ControlPlane.Proofs.Api.Route
import ControlPlane.Proofs.Cli.Arguments
import ControlPlane.Proofs.Cli.Deletion
import ControlPlane.Proofs.Json.Bounded
import ControlPlane.Proofs.Json.BoundedForm
import ControlPlane.Proofs.Api.Command
import ControlPlane.Proofs.Cluster.Single
import ControlPlane.Proofs.Cluster.Service
import ControlPlane.Proofs.Consensus.Message
import ControlPlane.Proofs.Table.History
import ControlPlane.Proofs.Table.InPlace
import ControlPlane.Proofs.Cluster.Members
import ControlPlane.Proofs.Remote.Exchange
import ControlPlane.Proofs.Table.Effect
import ControlPlane.Proofs.Table.Creation
import ControlPlane.Proofs.Table.Independence
import ControlPlane.Proofs.Table.Repetition
import ControlPlane.Proofs.Table.Removal
import ControlPlane.Proofs.Command.Builder
import ControlPlane.Proofs.Command.Refusal
import ControlPlane.Proofs.Storage.Snapshot
import ControlPlane.Proofs.Storage.Interruption
import ControlPlane.Proofs.Storage.Sides
import ControlPlane.Proofs.Storage.Numbering
import ControlPlane.Proofs.Storage.Damage
import ControlPlane.Proofs.Storage.Overlap
import ControlPlane.Proofs.Command.Raw
import ControlPlane.Proofs.Command.Delivery
import ControlPlane.Proofs.Number.Integer
import ControlPlane.Proofs.Cli.Replica
import ControlPlane.Proofs.Cli.Creation
import ControlPlane.Proofs.Lookup
import ControlPlane.Proofs.Files
import ControlPlane.Proofs.Toml.Text
import ControlPlane.Proofs.Toml.Value
import ControlPlane.Proofs.Toml.Document
import ControlPlane.Proofs.Config.Toml
import ControlPlane.Proofs.Config.File
import ControlPlane.Proofs.Command.Guard
