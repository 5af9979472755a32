import ObjectBroker.Error.Label
import ObjectBroker.Session
import ObjectBroker.Value.Dump
import ObjectBroker.Proofs.Value.Snapshot
import ObjectBroker.Proofs.Value.Canonical
import ObjectBroker.Proofs.Connection.RequestId
import ObjectBroker.Proofs.Network.Transparency
import ObjectBroker.Proofs.Network.Shutdown
import ObjectBroker.Proofs.Value.Bisimulation
import ObjectBroker.Proofs.Value.Depth
import ObjectBroker.Proofs.Value.Inheritance
import ObjectBroker.Proofs.Value.Tags
import ObjectBroker.Proofs.Value.Consumption
import ObjectBroker.Proofs.Value.Workshop
import ObjectBroker.Proofs.Naming.Refinement
import ObjectBroker.Proofs.Transport.Limit
import ObjectBroker.Proofs.Fragment.Table
import ObjectBroker.Proofs.Message.Payload
import ObjectBroker.Proofs.Reference.Survival
import ObjectBroker.Proofs.Naming.Text
import ObjectBroker.Proofs.Dispatch.Reply
import ObjectBroker.Proofs.Dispatch.Location
import ObjectBroker.Proofs.Adapter.Activation
import ObjectBroker.Proofs.Record
import ObjectBroker.Proofs.Stream.Bounds
