/-
Module: WebhookProcessor.Model.Latency
Layer: Model
Purpose: Concurrent calls of `ObserveEventProcessingDuration` on one `ProcessingLatency`.  Each
  atomic `Add`, `Load` and `CompareAndSwap` is a step of its own; the statements between two of them
  touch only the call's own variables and belong to the step before.
Trusted boundary: the operations of `atomic.Int64` are sequentially consistent, as the Go memory
  model says.
Main exports: ObservePhase, ObserveCall, ObserveCall.advance, LatencyState, LatencyState.observe,
  LatencyState.Reached
-/
import WebhookProcessor.Concurrency.Pool
import WebhookProcessor.Model.Metrics

namespace WebhookProcessor

open Concurrency

/-- The atomic operation that a call of `ObserveEventProcessingDuration` makes next. -/
inductive ObservePhase where
  | addCount
  | addSum
  /-- The load in the header of the loop. -/
  | load
  /-- In the body of the loop, with the value loaded last. -/
  | compareAndSwap (current : Int64)
  /-- The load at the end of the body, after a swap that failed. -/
  | reload
  | returned
deriving Repr, DecidableEq

/-- A call of `ObserveEventProcessingDuration`. -/
structure ObserveCall where
  nanoseconds : Int64
  phase : ObservePhase
deriving Repr, DecidableEq

namespace ObserveCall

/-- A call before its first atomic operation. -/
def entered (duration : Duration) : ObserveCall :=
  { nanoseconds := duration
    phase := .addCount }

/-- The condition of the loop, after either load. -/
def checkLoop (call : ObserveCall) (current : Int64) : ObserveCall :=
  { call with phase := if call.nanoseconds > current then .compareAndSwap current else .returned }

/-- The next atomic operation of a call. -/
def advance (latency : ProcessingLatency) (call : ObserveCall) :
    Option (ProcessingLatency × ObserveCall) :=
  match call.phase with
  | .addCount =>
      some ({ latency with count := latency.count + 1 }, { call with phase := .addSum })
  | .addSum =>
      some ({ latency with sumNS := latency.sumNS + call.nanoseconds },
        { call with phase := .load })
  | .load => some (latency, call.checkLoop latency.maxNS)
  | .compareAndSwap current =>
      if latency.maxNS = current then
        some ({ latency with maxNS := call.nanoseconds }, { call with phase := .returned })
      else some (latency, { call with phase := .reload })
  | .reload => some (latency, call.checkLoop latency.maxNS)
  | .returned => none

end ObserveCall

/-- The aggregate and the calls that have started. -/
abbrev LatencyState := Pool ProcessingLatency ObserveCall

namespace LatencyState

/-- `NewMetrics`, before any call. -/
def new : LatencyState := Pool.initial Metrics.new.processingLatency

/-- A call starts, or one of the calls makes its next atomic operation. -/
def observe : LatencyState → PoolAction Duration → Option LatencyState :=
  Pool.next ObserveCall.entered ObserveCall.advance

/-- States that some interleaving leads to. -/
abbrev Reached (state : LatencyState) : Prop := Transition.Reachable new observe state

variable (state : LatencyState)

/-- The durations of the calls that have started. -/
def durations : List Int := state.threads.map fun call => call.nanoseconds.toInt

/-- Every call has returned. -/
def AllReturned : Prop := ∀ call ∈ state.threads, call.phase = .returned

instance : Decidable state.AllReturned :=
  inferInstanceAs (Decidable (∀ call ∈ state.threads, call.phase = .returned))

/-- Where the call with this index stands. -/
def phase? (index : Nat) : Option ObservePhase := state.threads[index]?.map ObserveCall.phase

end LatencyState

end WebhookProcessor
