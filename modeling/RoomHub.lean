import RoomHub.Access
import RoomHub.Calendar
import RoomHub.CallTracker
import RoomHub.Crypto.Hmac
import RoomHub.Crypto.Sha1
import RoomHub.Crypto.Sha256
import RoomHub.Duration
import RoomHub.Event
import RoomHub.Http.Cors
import RoomHub.Http.Exchange
import RoomHub.Http.Head
import RoomHub.Http.Router
import RoomHub.Http.Target
import RoomHub.Hub
import RoomHub.Id
import RoomHub.Json
import RoomHub.Lifecycle
import RoomHub.Log.Entry
import RoomHub.Log.Filter
import RoomHub.Main
import RoomHub.Membership
import RoomHub.Message
import RoomHub.Outbox
import RoomHub.Participant
import RoomHub.Posting
import RoomHub.Presence
import RoomHub.Program
import RoomHub.Proofs.Calendar.Days
import RoomHub.Proofs.Calendar.Moments
import RoomHub.Proofs.CallMarks
import RoomHub.Proofs.CallTracker
import RoomHub.Proofs.CallTracker.Counters
import RoomHub.Proofs.Duration
import RoomHub.Proofs.Event
import RoomHub.Proofs.Http.Escapes
import RoomHub.Proofs.Http.Origins
import RoomHub.Proofs.Http.Spellings
import RoomHub.Proofs.Http.Verdict
import RoomHub.Proofs.Hub.Bootstrap
import RoomHub.Proofs.Hub.Broadcast
import RoomHub.Proofs.Hub.CallCount
import RoomHub.Proofs.Hub.CallRoster
import RoomHub.Proofs.Hub.Canonical
import RoomHub.Proofs.Hub.Commuting
import RoomHub.Proofs.Hub.Interleavings
import RoomHub.Proofs.Hub.Isolation
import RoomHub.Proofs.Hub.Lighter
import RoomHub.Proofs.Hub.Membership
import RoomHub.Proofs.Hub.Rosters
import RoomHub.Proofs.Hub.Sending
import RoomHub.Proofs.Hub.Snapshots
import RoomHub.Proofs.Hub.Sparing
import RoomHub.Proofs.Hub.Step
import RoomHub.Proofs.Hub.Stream
import RoomHub.Proofs.Id
import RoomHub.Proofs.Id.Layouts
import RoomHub.Proofs.Interludes
import RoomHub.Proofs.Json.Grammar
import RoomHub.Proofs.Json.Records
import RoomHub.Proofs.Json.RoundTrip
import RoomHub.Proofs.Json.Spelling
import RoomHub.Proofs.Programs
import RoomHub.Proofs.Registry.Mirror
import RoomHub.Proofs.Registry.Table
import RoomHub.Proofs.RoomTable
import RoomHub.Proofs.Roster
import RoomHub.Proofs.Scene.Announcements
import RoomHub.Proofs.Scene.Debts
import RoomHub.Proofs.Scene.Handover
import RoomHub.Proofs.Scene.Moves
import RoomHub.Proofs.Scene.Readings
import RoomHub.Proofs.Scene.Snapshots
import RoomHub.Proofs.Session.CallFlag
import RoomHub.Proofs.Session.Courier
import RoomHub.Proofs.Session.Ignored
import RoomHub.Proofs.Session.Listening
import RoomHub.Proofs.Session.Probes
import RoomHub.Proofs.Session.Silence
import RoomHub.Proofs.Settings
import RoomHub.Proofs.Store
import RoomHub.Proofs.Store.Ledger
import RoomHub.Proofs.Store.Seeding
import RoomHub.Proofs.Tables
import RoomHub.Proofs.Text.Base64Url
import RoomHub.Proofs.Text.Decimal
import RoomHub.Proofs.Text.Hex
import RoomHub.Proofs.Text.Utf8
import RoomHub.Proofs.Token.Acceptance
import RoomHub.Proofs.Token.Checks
import RoomHub.Proofs.Token.Issuing
import RoomHub.Proofs.Token.Readings
import RoomHub.Proofs.Venue.Admission
import RoomHub.Proofs.Venue.Conduct
import RoomHub.Proofs.Venue.Confidence
import RoomHub.Proofs.Venue.Departures
import RoomHub.Proofs.Venue.Errands
import RoomHub.Proofs.Venue.Guests
import RoomHub.Proofs.Venue.Minutes
import RoomHub.Proofs.Venue.Moves
import RoomHub.Proofs.Venue.Order
import RoomHub.Proofs.Venue.Serving
import RoomHub.Proofs.Venue.Standing
import RoomHub.Proofs.Venue.Tenure
import RoomHub.Proofs.Wire.ClientFrames
import RoomHub.Proofs.Wire.Frames
import RoomHub.Proofs.Wire.NormalForm
import RoomHub.Proofs.Wire.Payload
import RoomHub.Registry
import RoomHub.Rehearsal
import RoomHub.Seed
import RoomHub.Server
import RoomHub.Service
import RoomHub.Session
import RoomHub.Session.Ending
import RoomHub.Session.ReadSide
import RoomHub.Session.WriteSide
import RoomHub.Settings.Arguments
import RoomHub.Settings.HubSettings
import RoomHub.Simulation
import RoomHub.Startup
import RoomHub.Store
import RoomHub.Text.Base64Url
import RoomHub.Text.Blank
import RoomHub.Text.Decimal
import RoomHub.Text.Hex
import RoomHub.Text.Split
import RoomHub.Text.Utf8
import RoomHub.Token
import RoomHub.Uuid
import RoomHub.WebSocket.Frame
import RoomHub.WebSocket.Handshake
import RoomHub.WebSocket.Inbound
import RoomHub.WebSocket.Socket
import RoomHub.Wire.ClientFrame
import RoomHub.Wire.Payload
import RoomHub.Wire.ServerFrame
import RoomHub.World
import RoomHub.Proofs.CallTracker.Counters
