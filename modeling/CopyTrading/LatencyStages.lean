import CopyTrading.LatencyRing
import CopyTrading.Trade

namespace CopyTrading

/-- `num_microseconds`: truncated towards zero, none outside 64 bits. -/
def numMicroseconds (d : Int) : Option Int :=
  let us := d.tdiv 1000
  if -9223372036854775808 ≤ us ∧ us ≤ 9223372036854775807 then some us else none

namespace LatencyStamps

def deltaUs : Option DateTime → Option DateTime → Option Int
  | some a, some b => numMicroseconds (b - a)
  | _, _ => none

variable (stamps : LatencyStamps)

def detectionUs : Option Int := deltaUs stamps.source stamps.detection

def strategyUs : Option Int := deltaUs stamps.detection stamps.signal

def riskUs : Option Int := deltaUs stamps.signal stamps.riskCheck

def submissionUs : Option Int := deltaUs stamps.riskCheck stamps.submission

def ackUs : Option Int := deltaUs stamps.submission stamps.ack

def executionUs : Option Int := deltaUs stamps.submission stamps.fill

def internalUs : Option Int := deltaUs stamps.detection stamps.submission

def endToEndUs : Option Int :=
  (deltaUs stamps.source stamps.fill).or (deltaUs stamps.detection stamps.fill)

/-- Only the stages that were measured. -/
def samples : List (LatencyStage × Int) :=
  [(.detection, stamps.detectionUs),
    (.strategy, stamps.strategyUs),
    (.risk, stamps.riskUs),
    (.submission, stamps.submissionUs),
    (.ack, stamps.ackUs),
    (.execution, stamps.executionUs),
    (.internal, stamps.internalUs),
    (.endToEnd, stamps.endToEndUs)].filterMap fun s => s.2.map (Prod.mk s.1)

end LatencyStamps

namespace LatencyRecorder

def recordAll (r : LatencyRecorder) (stamps : LatencyStamps) : LatencyRecorder :=
  stamps.samples.foldl (fun r s => r.record s.1 s.2) r

theorem recordAll_run (records : List (LatencyStage × Int)) (stamps : LatencyStamps) :
    (run records).recordAll stamps = run (records ++ stamps.samples) := by
  unfold recordAll run
  rw [List.foldl_append]

end LatencyRecorder

end CopyTrading
