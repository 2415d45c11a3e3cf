import EventPipeline.Computation.Binary64

/-!
# Settings

The settings that the modelled functions read. Time is counted in microseconds, the
resolution of a Python `datetime`; the counters that bound something are natural numbers. The
two delays of the backoff are floats, infinity and `nan` included; a negative delay is not
modelled. SOURCE: app/config.py:6-53
-/

set_option autoImplicit false

namespace EventPipeline.Model

open EventPipeline.Computation

/-- A point in time, or a span of it, in microseconds. -/
abbrev Time := ℕ

def seconds (n : ℕ) : Time := n * 1000000

def minutes (n : ℕ) : Time := seconds (n * 60)

structure Settings where
  deliveryMaxAttempts : ℕ
  deliveryStaleInFlight : Time
  deliveryBaseDelaySeconds : Binary64
  deliveryMaxDelaySeconds : Binary64
  deliveryBatchSize : ℕ
  reconcilerStale : Time
  reconcilerMaxAttempts : ℕ
  reconcilerBatchSize : ℕ
  consumerMaxMessageBytes : ℕ

/-- The defaults of `Settings`. The batch size of the delivery worker is a constant of its
query (app/delivery/worker.py:71). -/
def Settings.default : Settings where
  deliveryMaxAttempts := 10
  deliveryStaleInFlight := minutes 10
  deliveryBaseDelaySeconds := .ofRat 1
  deliveryMaxDelaySeconds := .ofRat 300
  deliveryBatchSize := 50
  reconcilerStale := minutes 5
  reconcilerMaxAttempts := 10
  reconcilerBatchSize := 100
  consumerMaxMessageBytes := 1048576

end EventPipeline.Model
