import AtomSpaceCog.Foundation.Bytes
import AtomSpaceCog.Foundation.Dedup
import AtomSpaceCog.Foundation.Loop
import AtomSpaceCog.Foundation.Settling
import AtomSpaceCog.Foundation.Text
import AtomSpaceCog.Foundation.Transition
import AtomSpaceCog.Socket.Endings
import AtomSpaceCog.Socket.Idle
import AtomSpaceCog.Socket.Prompt
import AtomSpaceCog.Socket.Receive
import AtomSpaceCog.Socket.Segmentation
import AtomSpaceCog.Socket.Sending
import AtomSpaceCog.Channel.Census
import AtomSpaceCog.Channel.Delivery
import AtomSpaceCog.Channel.Duties
import AtomSpaceCog.Channel.Executed
import AtomSpaceCog.Channel.Fence
import AtomSpaceCog.Channel.Keeping
import AtomSpaceCog.Channel.Ledger
import AtomSpaceCog.Channel.Line
import AtomSpaceCog.Channel.Machine
import AtomSpaceCog.Channel.Mirror
import AtomSpaceCog.Channel.Msg
import AtomSpaceCog.Channel.Notice
import AtomSpaceCog.Channel.Outline
import AtomSpaceCog.Channel.Progress
import AtomSpaceCog.Channel.Record
import AtomSpaceCog.Channel.Secures
import AtomSpaceCog.Channel.Serial
import AtomSpaceCog.Channel.Settling
import AtomSpaceCog.Channel.Since
import AtomSpaceCog.Channel.Sources
import AtomSpaceCog.Channel.Steps
import AtomSpaceCog.Channel.Wires
import AtomSpaceCog.Sexpr.Atomese
import AtomSpaceCog.Sexpr.Gains
import AtomSpaceCog.Sexpr.Growth
import AtomSpaceCog.Sexpr.Plain
import AtomSpaceCog.Sexpr.Spaced
import AtomSpaceCog.Storage.Attaching
import AtomSpaceCog.Storage.Barrier
import AtomSpaceCog.Storage.Close
import AtomSpaceCog.Storage.Duplicates
import AtomSpaceCog.Storage.Errands
import AtomSpaceCog.Storage.Exchanges
import AtomSpaceCog.Storage.Fetch
import AtomSpaceCog.Storage.Growing
import AtomSpaceCog.Storage.Handled
import AtomSpaceCog.Storage.Handlers
import AtomSpaceCog.Storage.ListErrands
import AtomSpaceCog.Storage.Operations
import AtomSpaceCog.Storage.Posted
import AtomSpaceCog.Storage.Reads
import AtomSpaceCog.Storage.Recall
import AtomSpaceCog.Storage.Requests
import AtomSpaceCog.Storage.Restore
import AtomSpaceCog.Storage.Settling
import AtomSpaceCog.Storage.Stalls
import AtomSpaceCog.Storage.Stock
import AtomSpaceCog.Storage.Updates
import AtomSpaceCog.Slots.Address
import AtomSpaceCog.Slots.Books
import AtomSpaceCog.Slots.Counters
import AtomSpaceCog.Slots.Descriptors
import AtomSpaceCog.Slots.Machine
import AtomSpaceCog.Slots.Ownership
import AtomSpaceCog.Slots.Steps
import AtomSpaceCog.Simple.Alone
import AtomSpaceCog.Simple.Connect
import AtomSpaceCog.Simple.Direct
import AtomSpaceCog.Simple.Discipline
import AtomSpaceCog.Simple.Fetching
import AtomSpaceCog.Simple.Frames
import AtomSpaceCog.Simple.Getting
import AtomSpaceCog.Simple.Guarded
import AtomSpaceCog.Simple.Lifetime
import AtomSpaceCog.Simple.Operations
import AtomSpaceCog.Simple.Orders
import AtomSpaceCog.Simple.Pairing
import AtomSpaceCog.Simple.Play
import AtomSpaceCog.Simple.Program
import AtomSpaceCog.Simple.Restore
import AtomSpaceCog.Simple.Settling
import AtomSpaceCog.Simple.Snapshot
import AtomSpaceCog.Simple.Talk
import AtomSpaceCog.Simple.Targets
import AtomSpaceCog.Decoding.Bounded
import AtomSpaceCog.Decoding.Effects
import AtomSpaceCog.Decoding.Ending
import AtomSpaceCog.Decoding.FrameNames
import AtomSpaceCog.Decoding.Lists
import AtomSpaceCog.Decoding.RoundTrip
import AtomSpaceCog.Decoding.Rounds
import AtomSpaceCog.Decoding.Strays
import AtomSpaceCog.Decoding.Walk
