import Rejoin.Text.Blank
import Rejoin.Text.Numeral
import Rejoin.Text.Utf8
import Rejoin.Text.Lines
import Rejoin.Text.Hex
import Rejoin.Text.Shown
import Rejoin.Text.Quoted
import Rejoin.Digest
import Rejoin.Number.Binary64
import Rejoin.Time.Span
import Rejoin.Time.Calendar
import Rejoin.Time.Timestamp
import Rejoin.Settings
import Rejoin.Json.Basic
import Rejoin.Json.Reader
import Rejoin.Json.Decoding
import Rejoin.Interruption
import Rejoin.Ticket
import Rejoin.Dir
import Rejoin.Lease
import Rejoin.Fleet
import Rejoin.Queue.Basic
import Rejoin.Queue.Scan
import Rejoin.Record
import Rejoin.Lookup.Enquiry
import Rejoin.Lookup.Table
import Rejoin.Lookup.Scope
import Rejoin.Transcript
import Rejoin.Capability
import Rejoin.Recipe
import Rejoin.Recovery
import Rejoin.Controller
import Rejoin.Rejoining.Error
import Rejoin.Rejoining.Basic
import Rejoin.Rejoining.Waiting
import Rejoin.Body
import Rejoin.ChangeDir
import Rejoin.Script
import Rejoin.Proofs.Places
import Rejoin.Proofs.Queue.Phases
import Rejoin.Proofs.Queue.Index
import Rejoin.Proofs.Lease.Holds
import Rejoin.Proofs.Lease.Ledger
import Rejoin.Proofs.Lease.History
import Rejoin.Proofs.Fleet.Channels
import Rejoin.Proofs.Recovery
import Rejoin.Proofs.Rejoining.Cases
import Rejoin.Proofs.World.Basic
import Rejoin.Proofs.World.Calls
import Rejoin.Proofs.World.Log
import Rejoin.Proofs.Queue.History
import Rejoin.Proofs.Queue.Lifecycle
import Rejoin.Proofs.Queue.Lookup
import Rejoin.Proofs.World.Parts
import Rejoin.Proofs.Deduplication
import Rejoin.Proofs.Exclusion
import Rejoin.Proofs.Outcome
import Rejoin.Proofs.Placement
import Rejoin.Proofs.Restitution
import Rejoin.Proofs.Lookup.Stack
import Rejoin.Proofs.Lookup.Plain
import Rejoin.Proofs.Lookup.Nested
import Rejoin.Proofs.Fleet.History
import Rejoin.Proofs.Reconnection
import Rejoin.Proofs.Fleet.Connections
import Rejoin.Proofs.World.Waking
import Rejoin.Proofs.Agreement
import Rejoin.Proofs.Completion
import Rejoin.Proofs.Json.Reading
import Rejoin.Proofs.Stored
import Rejoin.Proofs.Token
import Rejoin.Proofs.Buffered
import Rejoin.Proofs.Overdue
import Rejoin.Proofs.Lookup.Required
import Rejoin.Proofs.Queue.Frame
import Rejoin.Proofs.Backing
import Rejoin.Proofs.Descent
import Rejoin.Proofs.Children
import Rejoin.Proofs.Registration
import Rejoin.Proofs.Lease.Search
import Rejoin.Proofs.Fleet.Names
import Rejoin.Proofs.Text.Utf8
import Rejoin.Proofs.Text.Numeral
import Rejoin.Proofs.Telling
import Rejoin.Proofs.Variables
import Rejoin.Proofs.Printing
