import Mqttium.Library.Dict
import Mqttium.Library.Table
import Mqttium.Library.Raising
import Mqttium.Library.Framing
import Mqttium.Codec.Text
import Mqttium.Enums
import Mqttium.Types
import Mqttium.Errors
import Mqttium.Codec.Primitives
import Mqttium.Codec.Properties
import Mqttium.Topics
import Mqttium.Packets.Common
import Mqttium.Codec.Buffer
import Mqttium.Decoding.Frames
import Mqttium.Decoding.Slab
import Mqttium.Decoding.Reading
import Mqttium.Decoding.Sessions
import Mqttium.Decoding.Peeking
import Mqttium.Packets.Ack
import Mqttium.Packets.Publish
import Mqttium.Packets.General
import Mqttium.Packets.Control
import Mqttium.Packets.Frames
import Mqttium.Persistence.Store
import Mqttium.Persistence.Operations
import Mqttium.Persistence.Memory
import Mqttium.Persistence.Sqlite
import Mqttium.Persistence.Paging
import Mqttium.Persistence.Revival
import Mqttium.Persistence.Agreement
import Mqttium.Persistence.Interference
import Mqttium.Protocol.PacketIds
import Mqttium.Protocol.PacketIdRuns
import Mqttium.Protocol.FlowControl
import Mqttium.Protocol.Config
import Mqttium.Protocol.State
import Mqttium.Protocol.Outbound
import Mqttium.Protocol.Inbound
import Mqttium.Protocol.Engine
import Mqttium.Protocol.Runs
import Mqttium.Ledger.Basic
import Mqttium.Ledger.Accounts
import Mqttium.Ledger.History
import Mqttium.Ledger.Order
import Mqttium.Refinement.View
import Mqttium.Refinement.Bystanders
import Mqttium.Refinement.Launching
import Mqttium.Refinement.Draining
import Mqttium.Refinement.Aside
import Mqttium.Refinement.Settling
import Mqttium.Refinement.Sealing
import Mqttium.Refinement.Admitting
import Mqttium.Refinement.Visiting
import Mqttium.Refinement.Resuming
import Mqttium.Refinement.Restarting
import Mqttium.Connection.Frames
import Mqttium.Connection.Outward
import Mqttium.Connection.Closing
import Mqttium.Connection.Silence
import Mqttium.Library.Leases
import Mqttium.Library.Readers
import Mqttium.Receiving.Exchanges
import Mqttium.Receiving.Bookkeeping
import Mqttium.Receiving.Handlers
import Mqttium.Receiving.Releases
import Mqttium.Receiving.Packets
import Mqttium.Receiving.Turns
import Mqttium.Receiving.Commands
import Mqttium.Receiving.Journal
import Mqttium.Codec.Roundtrip
import Mqttium.Decoding.Publish
import Mqttium.Decoding.Reencoding
import Mqttium.Dispatch.Matcher
import Mqttium.Dispatch.Tree
import Mqttium.Dispatch.Matching
import Mqttium.Dispatch.Registry
import Mqttium.Library.Database
import Mqttium.Persistence.Transactions
import Mqttium.Persistence.Atomicity
import Mqttium.Persistence.Interruptions
import Mqttium.Transport.Frames
import Mqttium.Transport.Websocket
import Mqttium.Transport.Receiving
import Mqttium.Library.Conveyor
import Mqttium.Writer.Pump
import Mqttium.Writer.Conveying
import Mqttium.Writer.Steps
import Mqttium.Writer.Batches
import Mqttium.Writer.Guarantees
import Mqttium.Delivery.Lane
import Mqttium.Delivery.Exactness
import Mqttium.Delivery.Guarantees
import Mqttium.Receiving.Redelivery
import Mqttium.Receiving.Opening
import Mqttium.Receiving.Resumption
import Mqttium.Receiving.Handoff
import Mqttium.Receiving.Window
import Mqttium.Receiving.Reuse
import Mqttium.Receiving.Renewal
import Mqttium.Dispatch.Grammar
import Mqttium.Protocol.Sizing
import Mqttium.Library.Grammar
import Mqttium.Packets.ConnectGrammar
import Mqttium.Packets.Connect
import Mqttium.Protocol.Connecting
import Mqttium.Library.Strides
import Mqttium.Transport.Masking
import Mqttium.Transport.Writing
import Mqttium.Library.Challenges
import Mqttium.Connection.Unasked
import Mqttium.Connection.Authentication
import Mqttium.Connection.Dialogue
import Mqttium.Ledger.Slots
import Mqttium.Refinement.Answering
import Mqttium.Refinement.Undisturbed
import Mqttium.Refinement.Attending
import Mqttium.Refinement.Accepting
import Mqttium.Refinement.Hydrating
import Mqttium.Refinement.Reporting
import Mqttium.Refinement.Replayable
import Mqttium.Refinement.Chronicle
import Mqttium.Refinement.Histories
import Mqttium.Refinement.Quotas
import Mqttium.Delivery.Stream
import Mqttium.Delivery.Charges
import Mqttium.Effects.Books
import Mqttium.Effects.Collecting
import Mqttium.Effects.Order
import Mqttium.Library.Numerals
import Mqttium.Codec.VariableByteInteger
import Mqttium.Receiving.Listening
import Mqttium.Receiving.Identities
import Mqttium.Receiving.Tokens
import Mqttium.Receiving.Isolation
import Mqttium.Library.Focus
import Mqttium.Transport.Push
import Mqttium.Ingress.Reader
import Mqttium.Ingress.Reading
import Mqttium.Ingress.Guarantees
import Mqttium.Ingress.Pressure
import Mqttium.Ingress.Waking
import Mqttium.Refinement.Ownership
import Mqttium.Refinement.Refusing
import Mqttium.Refinement.Unwinding
