/-
# Probe.HostDrain -- the browser host that drains one renderer's queue

`NativeProbeHost::Drain` and `Disable` on one configuration, beside the producers of
`EmitEvent`.  The host stands between two accesses to the shared region at a named
point, with the locals of the turn of Drain's loop it is in; `session_->Emit` is
recorded.  `Disable` empties the queue and then lets go of the mapping, so its last
point is final.
-/
import Reb.Probe.GapWeight
import Reb.Probe.ProbeQueue

namespace Reb.Probe

set_option autoImplicit false

open Theory.Interleaving

instance : Inhabited NativeProbeEvent := ⟨{}⟩

/-- What the host hands to the session: an event it popped, or a gap record it made. -/
inductive Emitted where
  | event (event : NativeProbeEvent)
  | gap (event : NativeProbeEvent)

/-- The popped events that were handed on, in order. -/
def handedOn (emitted : List Emitted) : List NativeProbeEvent :=
  emitted.filterMap fun
    | .event event => some event
    | .gap _ => none

/-- The sum of the weights of the gap records. -/
def gapWeights (emitted : List Emitted) : Nat :=
  (emitted.map fun
    | .event _ => 0
    | .gap event => (nativeProbeDropWeight event).toNat).sum

/-- The shared region and what the host keeps of this configuration. -/
structure HostMemory (ι : Type) where
  ring : ProbeQueueRun ι NativeProbeEvent
  notificationPending : Bool
  reportedDroppedEvents : UInt64
  emitted : List Emitted

/-- `Empty()`, for a host that nobody pushes beside. -/
def ProbeQueueRun.empty {ι Event : Type} (run : ProbeQueueRun ι Event) : Bool :=
  (run.slot run.queue.dequeuePosition).sequence != run.queue.dequeuePosition + 1

/-! ## Producers -/

/-- One access of `EmitEvent`.  An accepted push goes on to `MarkNotificationPending`;
a refused one has nothing to announce. -/
def emitEvent {ι : Type} (producer : ι) (call : NativeProbeEvent) (spurious : Bool)
    (memory : HostMemory ι) : TryPush NativeProbeEvent → HostMemory ι × TryPush NativeProbeEvent
  | .returned true => ({ memory with notificationPending := true }, .idle)
  | .returned false => (memory, .idle)
  | pc =>
      let moved := TryPush.access producer (call, nativeProbeDropWeight call) spurious memory.ring pc
      ({ memory with ring := moved.1 }, moved.2)

/-! ## The host -/

/-- The locals of Drain: the call it serves, `frame_tabs`, and those of one turn of the
loop.  `unreported` is `dropped > reported_dropped_events_` once that is evaluated. -/
structure DrainTurn where
  disabling : Bool
  frameTabs : UInt64 → Option UInt32
  lastEvent : NativeProbeEvent := {}
  drainedEvent : Bool := false
  unreported : Bool := false

/-- The next turn of the loop. -/
def DrainTurn.again (turn : DrainTurn) : DrainTurn :=
  { disabling := turn.disabling, frameTabs := turn.frameTabs }

/-- The event with the tab of its frame, where that is known. -/
def tabbed (frameTabs : UInt64 → Option UInt32) (event : NativeProbeEvent) : NativeProbeEvent :=
  match frameTabs event.header.frameId with
  | some tab => if tab != 0 then { event with header := { event.header with tabId := tab } } else event
  | none => event

inductive Host where
  | idle
  | tryPop (turn : DrainTurn) (pc : TryPop NativeProbeEvent)
  | droppedCount (turn : DrainTurn)
  | clearNotification (turn : DrainTurn)
  | emptyPosition (turn : DrainTurn)
  | emptySequence (turn : DrainTurn) (position : UInt64)
  | markNotification (turn : DrainTurn)
  | disabled (turn : DrainTurn)

namespace Host

variable {ι : Type}

/-- Drain returns to its caller. -/
def leave (turn : DrainTurn) : Host := if turn.disabling then .disabled turn else .idle

/-- The gap report of one turn. -/
def report (memory : HostMemory ι) (turn : DrainTurn) : HostMemory ι :=
  let dropped := memory.ring.queue.dropped
  if turn.drainedEvent && dropped > memory.reportedDroppedEvents then
    { memory with
      emitted := memory.emitted ++
        [.gap (makeNativeProbeGapEvent turn.lastEvent (dropped - memory.reportedDroppedEvents))]
      reportedDroppedEvents := dropped }
  else memory

/-- One access of the host.  `disable` is the call it makes where it is between two. -/
def access (disable : Bool) (frameTabs : UInt64 → Option UInt32) (memory : HostMemory ι) :
    Host → HostMemory ι × Host
  | .idle => (memory, .tryPop { disabling := disable, frameTabs } .loadPosition)
  | .tryPop turn (.returned none) => (memory, .droppedCount turn)
  | .tryPop turn (.returned (some event)) =>
      let event := tabbed turn.frameTabs event
      ({ memory with emitted := memory.emitted ++ [.event event] },
        .tryPop { turn with lastEvent := event, drainedEvent := true } .loadPosition)
  | .tryPop turn pc =>
      let moved := TryPop.access memory.ring pc
      ({ memory with ring := moved.1 }, .tryPop turn moved.2)
  | .droppedCount turn =>
      (report memory turn, .clearNotification
        { turn with unreported := memory.ring.queue.dropped > memory.reportedDroppedEvents })
  | .clearNotification turn => ({ memory with notificationPending := false }, .emptyPosition turn)
  | .emptyPosition turn => (memory, .emptySequence turn memory.ring.queue.dequeuePosition)
  | .emptySequence turn position =>
      if (memory.ring.slot position).sequence != position + 1 then (memory, leave turn)
      else (memory, .markNotification turn)
  | .markNotification turn =>
      ({ memory with notificationPending := true },
        if memory.notificationPending then leave turn else .tryPop turn.again .loadPosition)
  -- `queue_` is null: Drain and Disable have nothing left to read.
  | .disabled turn => (memory, .disabled turn)

end Host

/-! ## The threads -/

inductive HostThread (ι : Type) where
  | producer (i : ι)
  | host
  deriving DecidableEq

abbrev HostThread.Local (ι : Type) : HostThread ι → Type
  | .producer _ => TryPush NativeProbeEvent
  | .host => Host

/-- What an access leaves open: the event of the next push, whether a weak exchange
fails, whether the host's next call is `Disable`, and the tabs it sees. -/
structure HostChoice where
  event : NativeProbeEvent := {}
  spurious : Bool := false
  disable : Bool := false
  frameTabs : UInt64 → Option UInt32 := fun _ => none

variable {ι : Type}

abbrev HostConfig (ι : Type) : Type := Config (HostThread.Local ι) (HostMemory ι)

def hostMachine : Machine (HostThread.Local ι) (HostMemory ι) HostChoice
  | .producer i, choice, memory, pc => emitEvent i choice.event choice.spurious memory pc
  | .host, choice, memory, pc => Host.access choice.disable choice.frameTabs memory pc

/-- After `Configure`: a fresh queue, nothing reported, nobody in a call. -/
def configured (ι : Type) : HostConfig ι where
  memory := { ring := .new, notificationPending := false, reportedDroppedEvents := 0, emitted := [] }
  locals
    | .producer _ => TryPush.idle
    | .host => Host.idle

namespace HostConfig

variable (config : HostConfig ι)

def host : Host := config.locals .host

def droppedCount : UInt64 := config.memory.ring.queue.dropped

end HostConfig

end Reb.Probe
