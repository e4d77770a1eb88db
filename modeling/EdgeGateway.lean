import EdgeGateway.Main
import EdgeGateway.Client.Reader
import EdgeGateway.Proofs.Body.Entries
import EdgeGateway.Proofs.Body.RoundTrip
import EdgeGateway.Proofs.Cbor.Spelling
import EdgeGateway.Proofs.Cbor.Windows
import EdgeGateway.Proofs.Channel.Line
import EdgeGateway.Proofs.Connection.Calls
import EdgeGateway.Proofs.Connection.Census
import EdgeGateway.Proofs.Connection.Registry
import EdgeGateway.Proofs.Eviction.Exactness
import EdgeGateway.Proofs.Gateway.Coherence
import EdgeGateway.Proofs.Gateway.CoherentRun
import EdgeGateway.Proofs.Gateway.Delivery
import EdgeGateway.Proofs.Gateway.Effects
import EdgeGateway.Proofs.Gateway.Endings
import EdgeGateway.Proofs.Gateway.Failures
import EdgeGateway.Proofs.Gateway.FanOut
import EdgeGateway.Proofs.Gateway.Following
import EdgeGateway.Proofs.Gateway.Footing
import EdgeGateway.Proofs.Gateway.Handling
import EdgeGateway.Proofs.Gateway.Identity
import EdgeGateway.Proofs.Gateway.Interleaving
import EdgeGateway.Proofs.Gateway.Listening
import EdgeGateway.Proofs.Gateway.Minding
import EdgeGateway.Proofs.Gateway.Noticing
import EdgeGateway.Proofs.Gateway.Numbers
import EdgeGateway.Proofs.Gateway.Race
import EdgeGateway.Proofs.Gateway.Relaying
import EdgeGateway.Proofs.Gateway.Requests
import EdgeGateway.Proofs.Gateway.Routes
import EdgeGateway.Proofs.Gateway.Serving
import EdgeGateway.Proofs.Gateway.Shutdown
import EdgeGateway.Proofs.Gateway.Statuses
import EdgeGateway.Proofs.Gateway.Succession
import EdgeGateway.Proofs.Gateway.Teardown
import EdgeGateway.Proofs.Gateway.Verdicts
import EdgeGateway.Proofs.Link.Conservation
import EdgeGateway.Proofs.Link.Dispatching
import EdgeGateway.Proofs.Link.Lifecycle
import EdgeGateway.Proofs.Link.Stalling
import EdgeGateway.Proofs.Session.Membership
import EdgeGateway.Proofs.Session.Refinement
import EdgeGateway.Proofs.Table.Sharding
import EdgeGateway.Proofs.Wire.Framing
import EdgeGateway.Proofs.Wire.Grammar
import EdgeGateway.Proofs.Wire.Headers
import EdgeGateway.Proofs.Wire.Relay
import EdgeGateway.Proofs.Wire.Sync
import EdgeGateway.Scenario.Eviction
import EdgeGateway.Scenario.Forwarder
import EdgeGateway.Scenario.Gateway
