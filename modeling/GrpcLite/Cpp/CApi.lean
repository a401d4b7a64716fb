import GrpcLite.Wire.Metadata
import GrpcLite.Wire.Status

/-!
# Error codes of the C interface

The codes that the C functions return.
-/

namespace GrpcLite.Cpp

inductive ErrorCode where
  | ok
  | invalidArgument
  | invalidState
  | outOfMemory
  | unsupported
  | unavailable
  | outOfRange
  | closed
  | wouldBlock
  | internal
  deriving DecidableEq, Repr

def errorString : ErrorCode → Bytes
  | .ok => ascii "ok"
  | .invalidArgument => ascii "invalid argument"
  | .invalidState => ascii "invalid state"
  | .outOfMemory => ascii "out of memory"
  | .unsupported => ascii "unsupported"
  | .unavailable => ascii "unavailable"
  | .outOfRange => ascii "out of range"
  | .closed => ascii "closed"
  | .wouldBlock => ascii "would block"
  | .internal => ascii "internal error"

end GrpcLite.Cpp
