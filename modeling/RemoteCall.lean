import RemoteCall.Main
import RemoteCall.Operation.Recording
import RemoteCall.Proofs.Call.RoundTrip
import RemoteCall.Proofs.Catalog.Completeness
import RemoteCall.Proofs.Migration.Acceptance
import RemoteCall.Proofs.Migration.RoundTrip
import RemoteCall.Proofs.Operation.Outgoing
import RemoteCall.Proofs.Operation.Tree
import RemoteCall.Proofs.Session.Reachable
import RemoteCall.Proofs.Session.Refreshing
import RemoteCall.Proofs.Session.Sending
import RemoteCall.Service.Description
import RemoteCall.Session.Registry
import RemoteCall.Proofs.Session.Registry
import RemoteCall.Proofs.Call.Action
import RemoteCall.Proofs.Session.Acceptance
import RemoteCall.Proofs.Session.Trace
import RemoteCall.Proofs.Migration.Stepwise
import RemoteCall.Proofs.Migration.Failure
import RemoteCall.Proofs.Migration.ProtocolVersion
import RemoteCall.Proofs.Session.Negotiation
import RemoteCall.Proofs.Catalog.Visibility
import RemoteCall.Proofs.Json.Reordered
import RemoteCall.Proofs.Signing.Key
import RemoteCall.Proofs.Signature.RoundTrip
import RemoteCall.Proofs.Catalog.RoundTrip
import RemoteCall.Proofs.Migration.Understanding
import RemoteCall.Proofs.Signature.Typing
import RemoteCall.Proofs.Path
import RemoteCall.Proofs.Operation.Places
import RemoteCall.Proofs.Operation.Conservation
import RemoteCall.Proofs.Operation.Resolution
import RemoteCall.Proofs.Operation.UserCode
import RemoteCall.Proofs.Session.Message
import RemoteCall.Proofs.Signing.RoundTrip
import RemoteCall.Proofs.Migration.Untouched
import RemoteCall.Proofs.Migration.Downgrade
import RemoteCall.Proofs.Migration.Newest
import RemoteCall.Proofs.Catalog.Warning
import RemoteCall.Proofs.Catalog.ModulePath
import RemoteCall.Proofs.Call.Finite
import RemoteCall.Proofs.Migration.Arguments
import RemoteCall.Proofs.CommandLine.Echo
