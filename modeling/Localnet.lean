import Localnet.Api.Health
import Localnet.Main
import Localnet.NodeId.Document
import Localnet.Proofs.Network.Bootstrap
import Localnet.Proofs.Network.Deadline
import Localnet.Proofs.Network.FailedAdd
import Localnet.Proofs.Network.Growth
import Localnet.Proofs.Network.Ledger
import Localnet.Proofs.Network.Membership
import Localnet.Proofs.Network.Ports
import Localnet.Proofs.Network.Undisturbed
import Localnet.Rehearsal.Console
import Localnet.Proofs.Settings
import Localnet.Proofs.Violations
import Localnet.Proofs.Network.Groundwork
import Localnet.Proofs.Network.Creation
import Localnet.Proofs.Network.Lasting
import Localnet.Proofs.Layers
import Localnet.Proofs.Network.Arguments
import Localnet.Proofs.Path
import Localnet.Proofs.FileTree
import Localnet.Proofs.Network.Files
import Localnet.Proofs.Network.Readings
import Localnet.Proofs.Network.Stopping
import Localnet.Proofs.Network.Lookups
import Localnet.Proofs.Network.Turns
import Localnet.Proofs.Network.Serialised
import Localnet.Proofs.NodeId
import Localnet.Proofs.Json.Number
import Localnet.Proofs.Json.Text
import Localnet.Proofs.Json.Value
import Localnet.Proofs.Json.RoundTrip
import Localnet.Proofs.Binary64
import Localnet.Proofs.Json.Yields
import Localnet.Proofs.Json.Record
import Localnet.Proofs.Json.RecordRoundTrip
import Localnet.Proofs.Config.Toml
import Localnet.Proofs.Config.Source
import Localnet.Proofs.Config.RoundTrip
import Localnet.Proofs.Config.Spelling
import Localnet.Proofs.Config.Coercion
import Localnet.Proofs.Process.LifeCycle
import Localnet.Proofs.Network.Teardown
import Localnet.Proofs.Service.Serving
import Localnet.Proofs.Network.Identity
import Localnet.Proofs.Network.Naming
import Localnet.Proofs.Layering
import Localnet.Proofs.Network.PortsApart
import Localnet.Proofs.NodeOrder
import Localnet.Proofs.Config.Standard
import Localnet.Proofs.Bytes
import Localnet.Proofs.Der
import Localnet.Proofs.PublicKey
import Localnet.Proofs.Armor
import Localnet.Proofs.Certificate
import Localnet.Proofs.Flags
import Localnet.Proofs.Network.SideBySide
