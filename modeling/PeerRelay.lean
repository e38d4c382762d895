import PeerRelay.Wire.Writer
import PeerRelay.Dice
import PeerRelay.Relay
import PeerRelay.Frame.Client
import PeerRelay.Frame.Punch
import PeerRelay.Frame.Server
import PeerRelay.Json.Parser
import PeerRelay.Json.Value
import PeerRelay.Nat.Pairing
import PeerRelay.Nat.Rendezvous
import PeerRelay.Net.Address
import PeerRelay.Pack
import PeerRelay.Pack.Base64
import PeerRelay.Pack.Block
import PeerRelay.Pack.Compressor
import PeerRelay.Region
import PeerRelay.Relay.Json
import PeerRelay.Room.Basic
import PeerRelay.Room.Lobby
import PeerRelay.Room.Id
import PeerRelay.Session
import PeerRelay.Text
import PeerRelay.Transport.Basic
import PeerRelay.Http
import PeerRelay.Uplink.Basic
import PeerRelay.Uplink.Prefetch
import PeerRelay.Node.Basic
import PeerRelay.Node.Endpoint
import PeerRelay.Fleet.Basic
import PeerRelay.Fleet.Endpoint
import PeerRelay.Fleet.Sweep
import PeerRelay.Net.Binding
import PeerRelay.Transport.Server
import PeerRelay.Cli.Balancer
import PeerRelay.Cli.Launch
import PeerRelay.Main
import PeerRelay.Fleet.Scripted
import PeerRelay.Proofs.Lobby.Consistency
import PeerRelay.Proofs.Lobby.Operations
import PeerRelay.Proofs.Lobby.HostView
import PeerRelay.Proofs.Lobby.Seats
import PeerRelay.Proofs.Lobby.Locality
import PeerRelay.Proofs.Lobby.Announcements
import PeerRelay.Proofs.Lobby.Authority
import PeerRelay.Proofs.Lobby.Capacity
import PeerRelay.Proofs.Lobby.Disclosure
import PeerRelay.Proofs.Lobby.Routing
import PeerRelay.Proofs.Collections
import PeerRelay.Proofs.Session
import PeerRelay.Proofs.Lobby.Request
import PeerRelay.Proofs.Node.Delivery
import PeerRelay.Proofs.Node.History
import PeerRelay.Proofs.Node.Accounts
import PeerRelay.Proofs.Node.Handlers
import PeerRelay.Proofs.Node.Peers
import PeerRelay.Proofs.Node.Service
import PeerRelay.Proofs.Nat.Pairing
import PeerRelay.Proofs.Nat.Rendezvous
import PeerRelay.Proofs.Dice
import PeerRelay.Proofs.Nat.Binding
import PeerRelay.Proofs.Node.Reuse
import PeerRelay.Proofs.Node.Board
import PeerRelay.Proofs.Node.Outsiders
import PeerRelay.Proofs.Node.Closing
import PeerRelay.Proofs.Text.Units
import PeerRelay.Proofs.Text.ByteOrder
import PeerRelay.Proofs.Lobby.Listings
import PeerRelay.Proofs.Wire.Field
import PeerRelay.Proofs.Wire.Writer
import PeerRelay.Proofs.Wire.Reader
import PeerRelay.Proofs.Wire.Spelling
import PeerRelay.Proofs.Frame.RoundTrip
import PeerRelay.Proofs.Frame.Spelling
import PeerRelay.Proofs.Frame.Reencoding
import PeerRelay.Proofs.Frame.Truncation
import PeerRelay.Proofs.Node.Packets
import PeerRelay.Proofs.Node.Isolation
import PeerRelay.Proofs.Node.Pooling
import PeerRelay.Proofs.Fleet.Transcript
import PeerRelay.Proofs.Fleet.Registry
import PeerRelay.Proofs.Fleet.Selection
import PeerRelay.Proofs.Fleet.Listing
import PeerRelay.Proofs.Json.Scalar
import PeerRelay.Proofs.Json.RoundTrip
import PeerRelay.Proofs.Json.Listing
import PeerRelay.Proofs.Node.Departure
import PeerRelay.Proofs.Fleet.RoomIds
import PeerRelay.Proofs.Fleet.Fidelity
import PeerRelay.Proofs.Fleet.Federation
import PeerRelay.Proofs.Fleet.Issue
import PeerRelay.Proofs.Fleet.Access
import PeerRelay.Proofs.Fleet.Harvest
import PeerRelay.Proofs.Fleet.Aggregation
import PeerRelay.Proofs.Fleet.Overtaking
import PeerRelay.Proofs.Fleet.Reservation
import PeerRelay.Proofs.Transport.Framing
import PeerRelay.Proofs.Transport.Task
import PeerRelay.Proofs.Transport.Order
import PeerRelay.Proofs.Transport.Limit
import PeerRelay.Proofs.Transport.Line
import PeerRelay.Proofs.Transport.Carriage
import PeerRelay.Proofs.Transport.Streams
import PeerRelay.Proofs.Node.Oversize
import PeerRelay.Proofs.Node.Opening
import PeerRelay.Proofs.Pack.Base64
import PeerRelay.Proofs.Pack.Block
import PeerRelay.Proofs.Pack.Compressor
import PeerRelay.Proofs.Pack.RoundTrip
import PeerRelay.Proofs.Transport.Numbering
import PeerRelay.Proofs.Fleet.Totals
import PeerRelay.Proofs.Handshake
import PeerRelay.Proofs.Lobby.Updates
import PeerRelay.Proofs.Uplink.Prefetch
import PeerRelay.Proofs.Wire.Calls
