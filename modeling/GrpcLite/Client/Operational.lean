import GrpcLite.Wire.Status

/-!
# Operational accounting

The gauges and counters of `OperationalAccounting` that follow the calls of a channel.  A gauge
that would leave the range of `u64` makes the source panic; here it sets `panicked`.
-/

namespace GrpcLite.Client

inductive Gauge where
  | activeUnaryCalls
  | activeStreams
  | pendingUnaryCalls
  | streamInboundBytes
  | streamOutboundBytes
  deriving DecidableEq, Repr

structure OperationalStats where
  activeUnaryCalls : ℕ := 0
  activeStreams : ℕ := 0
  pendingUnaryCalls : ℕ := 0
  pendingUnaryCallsHighWater : ℕ := 0
  streamInboundBytes : ℕ := 0
  streamInboundBytesHighWater : ℕ := 0
  streamOutboundBytes : ℕ := 0
  streamOutboundBytesHighWater : ℕ := 0
  socketWriteBytes : ℕ := 0
  socketWriteBytesHighWater : ℕ := 0
  terminalOk : ℕ := 0
  terminalCancelled : ℕ := 0
  terminalDeadlineExceeded : ℕ := 0
  terminalOther : ℕ := 0
  panicked : Bool := false
  deriving DecidableEq, Repr

namespace OperationalStats

def gauge (stats : OperationalStats) : Gauge → ℕ
  | .activeUnaryCalls => stats.activeUnaryCalls
  | .activeStreams => stats.activeStreams
  | .pendingUnaryCalls => stats.pendingUnaryCalls
  | .streamInboundBytes => stats.streamInboundBytes
  | .streamOutboundBytes => stats.streamOutboundBytes

def setGauge (stats : OperationalStats) (value : ℕ) : Gauge → OperationalStats
  | .activeUnaryCalls => { stats with activeUnaryCalls := value }
  | .activeStreams => { stats with activeStreams := value }
  | .pendingUnaryCalls => { stats with pendingUnaryCalls := value }
  | .streamInboundBytes => { stats with streamInboundBytes := value }
  | .streamOutboundBytes => { stats with streamOutboundBytes := value }

def raise (stats : OperationalStats) : Gauge → OperationalStats
  | .pendingUnaryCalls => { stats with
      pendingUnaryCallsHighWater := max stats.pendingUnaryCallsHighWater stats.pendingUnaryCalls }
  | .streamInboundBytes => { stats with
      streamInboundBytesHighWater :=
        max stats.streamInboundBytesHighWater stats.streamInboundBytes }
  | .streamOutboundBytes => { stats with
      streamOutboundBytesHighWater :=
        max stats.streamOutboundBytesHighWater stats.streamOutboundBytes }
  | .activeUnaryCalls | .activeStreams => stats

def add (stats : OperationalStats) (gauge : Gauge) (amount : ℕ) : OperationalStats :=
  if maxU64 < stats.gauge gauge + amount then { stats with panicked := true }
  else (stats.setGauge (stats.gauge gauge + amount) gauge).raise gauge

def subtract (stats : OperationalStats) (gauge : Gauge) (amount : ℕ) : OperationalStats :=
  if stats.gauge gauge < amount then { stats with panicked := true }
  else stats.setGauge (stats.gauge gauge - amount) gauge

def setSocketBytes (stats : OperationalStats) (bytes : ℕ) : OperationalStats :=
  { stats with
    socketWriteBytes := bytes
    socketWriteBytesHighWater := max stats.socketWriteBytesHighWater bytes }

/-- The counter of a status code, which saturates. -/
def count (stats : OperationalStats) : Code → OperationalStats
  | .ok => { stats with terminalOk := satAdd stats.terminalOk 1 }
  | .cancelled => { stats with terminalCancelled := satAdd stats.terminalCancelled 1 }
  | .deadlineExceeded =>
    { stats with terminalDeadlineExceeded := satAdd stats.terminalDeadlineExceeded 1 }
  | _ => { stats with terminalOther := satAdd stats.terminalOther 1 }

def terminal (stats : OperationalStats) (active : Gauge) (code : Code) : OperationalStats :=
  if stats.gauge active = 0 then { stats with panicked := true }
  else (stats.setGauge (stats.gauge active - 1) active).count code

end OperationalStats

end GrpcLite.Client
