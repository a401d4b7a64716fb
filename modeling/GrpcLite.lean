import GrpcLite.Wire.Timeout
import GrpcLite.Wire.FrameCodec
import GrpcLite.Server.Headers
import GrpcLite.Server.Callbacks
import GrpcLite.Server.TrailingMetadata
import GrpcLite.Server.ResponseEncoding
import GrpcLite.Client.Deadline
import GrpcLite.Client.Lifecycle
import GrpcLite.Client.Messages
import GrpcLite.Client.Sending
import GrpcLite.Client.Agreement
import GrpcLite.Client.MetadataCodec
import GrpcLite.Cpp.SendResult
import GrpcLite.Cpp.Cancellation
import GrpcLite.Server.DrainTimeout
import GrpcLite.Resolver.Answers
import GrpcLite.Deadline.Heap
import GrpcLite.Connection.Goaway
import GrpcLite.Connection.CleartextOutput
import GrpcLite.Connection.Credit
import GrpcLite.Connection.Deadlines
import GrpcLite.Connection.Admission
import GrpcLite.Channel.Accounting
import GrpcLite.Server.Registration
import GrpcLite.Clock.Sequential
import GrpcLite.Connection.Establishment
import GrpcLite.Generator.Classes
import GrpcLite.Cpp.TypedDispatch
import GrpcLite.Cpp.SyncDispatch
