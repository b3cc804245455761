import MsgPack.Collection.ByteBuffer
import MsgPack.Collection.Stack
import MsgPack.Derive.Execution
import MsgPack.Derive.Implementation
import MsgPack.Derive.TypeExpression
import MsgPack.Formatter.Codec
import MsgPack.Formatter.Detailed
import MsgPack.Formatter.Resolver
import MsgPack.Formatter.Typing
import MsgPack.Proofs.Datum.Composed
import MsgPack.Proofs.Datum.Reads
import MsgPack.Proofs.Derive.Layout
import MsgPack.Proofs.Derive.RoundTrip
import MsgPack.Proofs.Formatter.Answers
import MsgPack.Proofs.Formatter.Appends
import MsgPack.Proofs.Formatter.Canonical
import MsgPack.Proofs.Formatter.Composed
import MsgPack.Proofs.Formatter.Containers
import MsgPack.Proofs.Formatter.Defined
import MsgPack.Proofs.Formatter.Delegation
import MsgPack.Proofs.Formatter.Emits
import MsgPack.Proofs.Formatter.Framing
import MsgPack.Proofs.Formatter.Located
import MsgPack.Proofs.Formatter.Reads
import MsgPack.Proofs.Formatter.Recursion
import MsgPack.Proofs.Formatter.Respelling
import MsgPack.Proofs.Formatter.Returning
import MsgPack.Proofs.Formatter.RoundTrip
import MsgPack.Proofs.Formatter.Takes
import MsgPack.Proofs.Reader.Depth
import MsgPack.Proofs.Reader.Said
import MsgPack.Proofs.Reader.Segments
import MsgPack.Proofs.Reader.Single
import MsgPack.Proofs.Reader.Skip
import MsgPack.Proofs.Value.Retold
import MsgPack.Proofs.Value.Shortest
import MsgPack.Proofs.Value.Skipped
import MsgPack.Reader.Walk
import MsgPack.Value.Normal
import MsgPack.Wire.Table
import MsgPack.Wire.WellFormed
import MsgPack.Proofs.Reader.Flat
import MsgPack.Proofs.Formatter.Depth
import MsgPack.Proofs.Reader.Recursion
import MsgPack.Proofs.Formatter.Calls
import MsgPack.Proofs.Formatter.Limit
import MsgPack.Proofs.Formatter.Growth
import MsgPack.Proofs.Formatter.Resolver
import MsgPack.Proofs.Formatter.Outlasting
import MsgPack.Proofs.Formatter.Overrun
import MsgPack.Proofs.Formatter.Component
import MsgPack.Proofs.Formatter.ArrayFields
import MsgPack.Proofs.Derive.Arrays
import MsgPack.Proofs.Derive.Choices
import MsgPack.Proofs.Formatter.MapFields
import MsgPack.Proofs.Formatter.Choices
import MsgPack.Proofs.Derive.Maps
import MsgPack.Proofs.Formatter.History
import MsgPack.Proofs.Formatter.Interleaving
import MsgPack.Proofs.Derive.Acceptance
import MsgPack.Proofs.Derive.Meaning
import MsgPack.Proofs.Derive.TypeExpression
import MsgPack.Proofs.Derive.WriteProgram
import MsgPack.Proofs.Formatter.Extension
import MsgPack.Proofs.Reader.Integers
import MsgPack.Proofs.Time.Calendar
import MsgPack.Proofs.Time.SystemTime
import MsgPack.Proofs.Datum.Memory
import MsgPack.Proofs.Formatter.Interchange
import MsgPack.Proofs.Formatter.Repeats
import MsgPack.Proofs.Reader.Walk
import MsgPack.Proofs.Reader.Borrowed
import MsgPack.Proofs.Formatter.Raw
import MsgPack.Proofs.Formatter.Grid
