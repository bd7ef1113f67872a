import OpenPubSub.NetworkMessage.Truncation
import OpenPubSub.NetworkMessage.Cleanup
import OpenPubSub.Lib.Fill
import OpenPubSub.NetworkMessage.Counters
import OpenPubSub.NetworkMessage.WellFormed
import OpenPubSub.Lib.Gather
import OpenPubSub.Subscriber.Run
import OpenPubSub.Types.VariantShape
import OpenPubSub.NetworkMessage.Encode
import OpenPubSub.NetworkMessage.EncodeStatus
import OpenPubSub.Server.Parents
import OpenPubSub.Types.RoundTrip
import OpenPubSub.NetworkMessage.ReadBack
import OpenPubSub.NetworkMessage.RoundTrip
import OpenPubSub.Lib.Completes
import OpenPubSub.NetworkMessage.EncodeDecode
import OpenPubSub.NetworkMessage.SecurityFooter
import OpenPubSub.NetworkMessage.Release
import OpenPubSub.Lib.Consecutive
import OpenPubSub.NetworkMessage.Sizes
import OpenPubSub.Lib.Measured
import OpenPubSub.Types.EncodeSizes
import OpenPubSub.NetworkMessage.PromotedFields
import OpenPubSub.NetworkMessage.EncodeSizes
import OpenPubSub.NetworkMessage.OffsetTable
import OpenPubSub.Types.Locality
import OpenPubSub.Types.WrappedLength
import OpenPubSub.Types.Refit
import OpenPubSub.Lib.Steps
import OpenPubSub.Subscriber.Stop
import OpenPubSub.Types.DiagnosticInfo
import OpenPubSub.Types.Nesting
import OpenPubSub.Types.Nested
import OpenPubSub.Types.NestedRoundTrip
import OpenPubSub.NetworkMessage.Refit
import OpenPubSub.NetworkMessage.Normalise
import OpenPubSub.NetworkMessage.UpdateNwMessage
import OpenPubSub.NetworkMessage.FastPath
import OpenPubSub.NetworkMessage.UpdateMessage
import OpenPubSub.NetworkMessage.PublisherFastPath
import OpenPubSub.NetworkMessage.RealTime
import OpenPubSub.Subscriber.Published
import OpenPubSub.Types.WireFormat
import OpenPubSub.Types.WireRoundTrip
import OpenPubSub.NetworkMessage.StructuredFields
import OpenPubSub.Lib.Chunks
import OpenPubSub.Types.EncodeChunks
import OpenPubSub.Types.Chunking
import OpenPubSub.NetworkMessage.Locality
import OpenPubSub.Types.Framing
import OpenPubSub.NetworkMessage.Framing
import OpenPubSub.NetworkMessage.AnyInput
import OpenPubSub.NetworkMessage.Recovery
