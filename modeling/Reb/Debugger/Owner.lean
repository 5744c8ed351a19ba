/-
# Debugger.Owner -- the actor that owns one VM helper

One actor takes control requests from its mailboxes, keeps at most one run, and
speaks to the helper of that run by one exchange at a time.  A `turn` is one round
of its loop: the lease check, then one event.  What the actor does not decide is
given to the turn: the readings of the clock, whether a spawn or a disposal
succeeds, what the helper replies, and which event comes next.

`log` records what the actor did, in the order it did it.  No function reads it.
-/
import Reb.Debugger.NativeReply

namespace Reb.Debugger

set_option autoImplicit false

/-! ## Durations, in nanoseconds -/

abbrev Duration := Nat

def Duration.maximum : Duration := (2 ^ 64 - 1) * 10 ^ 9 + 999999999

def Duration.saturatingAdd (a b : Duration) : Duration := min (a + b) Duration.maximum

def lifetime : Duration := 60 * 10 ^ 9

def runInterval : Duration := 250 * 10 ^ 6

/-! ## Requests and replies -/

inductive Action where
  | create | run | pause | step | stop | reset | close
  deriving DecidableEq, Repr

/-- A parsed request; `created` is what `parse` has checked and `start` unwraps. -/
structure ControlRequest where
  action : Action
  commandId : String
  fixture : Option Fixture := none
  backendInstanceId : Option String := none
  sessionId : Option String := none
  runId : Option String := none
  runGeneration : Option UInt64 := none
  expectedControlRevision : Option UInt64 := none
  expectedExecutedCount : Option UInt64 := none
  created : action = .create → fixture.isSome = true

/-- The actions that may leave another run than they found. -/
def Action.renews : Action → Bool
  | .create | .reset | .close => true
  | _ => false

inductive State where
  | starting | paused | running | pausing | stepping | stopping | halted | stopped | expired | failed
  deriving DecidableEq, Repr

def State.terminal : State → Bool
  | .halted | .stopped | .expired | .failed => true
  | _ => false

inductive Ack where
  | pending | completed | rejected | outcomeUnknown
  deriving DecidableEq, Repr

structure LastCommand where
  commandId : String
  action : Action
  ack : Ack
  deriving DecidableEq, Repr

structure SessionView where
  backendInstanceId : String
  sessionId : String
  runId : String
  runGeneration : UInt64
  fixture : Fixture
  buildId : Option String := none
  state : State := .starting
  controlRevision : UInt64 := 1
  snapshotRevision : UInt64 := 0
  trace : Trace := {}
  executionStateKnown : Bool := false
  terminationReason : Option String := none
  lastCommand : Option LastCommand
  disposalFailed : Bool := false
  deriving DecidableEq, Repr

structure PublicView where
  session : Option SessionView
  commandId : Option String := none
  ack : Option Ack := none
  deriving DecidableEq, Repr

/-- A served view, annotated with a reason when its acknowledgment is uncertain. -/
structure Answer where
  view : PublicView
  reason : Option Reason
  deriving DecidableEq, Repr

/-- `reply` numbers the envelopes in the order they are taken; it stands for the
one-shot channel each of them carries. -/
structure Envelope where
  request : ControlRequest
  reply : Nat

structure WireRequest where
  id : UInt64
  generation : UInt64
  count : UInt64
  operation : UInt16
  deriving DecidableEq, Repr

/-! ## What the actor does not decide -/

inductive SpawnFailure where
  | unavailable | tooLarge
  deriving DecidableEq, Repr

inductive DisposalFailure where
  | notReaped | failed
  deriving DecidableEq, Repr

def dependency : Error :=
  ({ status := 503
     message := "Owned VM helper is unavailable or changed during admission" } : Error).withCode
    .dependencyUnavailable

def busy : Error := .conflict "Owned VM control is busy; inspect state before another command"

def SpawnFailure.error : SpawnFailure → Error
  | .unavailable => dependency
  | .tooLarge =>
      ({ status := 503, message := "Configured VM helper exceeds 64 MiB" } : Error).withCode
        .resourceLimit

def DisposalFailure.error : DisposalFailure → Error
  | .notReaped =>
      ({ status := 503, message := "Owned VM helper could not be reaped" } : Error).withCode
        .resourceLimit
  | .failed =>
      ({ status := 503, message := "Owned VM helper disposal failed" } : Error).withCode
        .applicationFailed

/-- What one event meets: the clock and the disposal of its own lease check, then
the clock, the disposal and the spawn of what it goes on to do.  `fits` says
whether a view serialises within the view limit. -/
structure Outside where
  checked : Duration := 0
  checkReaped : Option DisposalFailure := none
  now : Duration := 0
  reaped : Option DisposalFailure := none
  spawned : Except SpawnFailure String := .ok ""
  fits : PublicView → Bool := fun _ => true

inductive Event where
  | shutdown
  | message (request : ControlRequest) (closed : Bool)
  | reply (result : Except Error NativeReply)
  | timer
  | mailboxClosed

/-- One round of the loop; `now` and `reaped` are met by the lease check at its head. -/
structure Turn where
  now : Duration := 0
  reaped : Option DisposalFailure := none
  event : Event
  outside : Outside := {}

/-! ## The run -/

structure Runtime where
  view : SessionView
  spec : SpawnSpec
  created : Duration
  lastClock : Duration
  nextTick : Option Duration := none
  nextRequest : UInt64 := 1
  deriving DecidableEq, Repr

/-- Terminal states are final, and a starting or stopping run keeps its name. -/
def State.allows (current next : State) : Bool :=
  !current.terminal
    && (next.terminal
      || match current with
        | .starting => next == .paused || next == .stopping
        | .stopping => false
        | _ => true)

namespace Runtime

def transition (s : Runtime) (next : State) : Runtime :=
  if s.view.state.allows next then { s with view := { s.view with state := next } } else s

/-- The first terminal state names why the run ended. -/
def terminate (s : Runtime) (state : State) (reason : String) : Runtime :=
  if s.view.state.allows state then
    { s with view := { s.view with state, terminationReason := some reason } }
  else s

def initializing (s : Runtime) : Bool := s.view.trace.initialSnapshot.isNone

def expiring (s : Runtime) : Bool := s.view.state == .stopping

def deadline (s : Runtime) : Duration := s.created.saturatingAdd lifetime

def stamp (s : Runtime) (request : ControlRequest) (ack : Ack) : Runtime :=
  { s with view := { s.view with lastCommand := some ⟨request.commandId, request.action, ack⟩ } }

/-- What `retire` does to the run. -/
def retired (s : Runtime) (state : State) (reason : String) (unknown : Bool) : Runtime :=
  let s := { s with nextTick := none }.terminate state reason
  { s with view := { s.view with
      controlRevision := (checkedAdd s.view.controlRevision 1).getD s.view.controlRevision
      executionStateKnown := s.view.executionStateKnown && !unknown
      lastCommand := s.view.lastCommand.map fun command =>
        { command with ack := if unknown then .outcomeUnknown else .rejected } } }

/-- What Stop, Close and Reset do to the run first. -/
def quiesced (s : Runtime) (uncertainStep : Bool) : Runtime :=
  let s := { s.transition .stopping with nextTick := none }
  { s with view := { s.view with
      executionStateKnown := s.view.executionStateKnown && !uncertainStep } }

/-- What `dispose` does to the run, given whether the helper could be reaped. -/
def disposed (s : Runtime) (reaped : Bool) : Runtime :=
  let s := { s with view := { s.view with disposalFailed := !reaped } }
  if reaped then s else s.terminate .failed "disposal_failed"

/-- The view after a validated reply. -/
def store (s : Runtime) (revision : UInt64) (reply : NativeView) : Runtime :=
  { s with view := { s.view with
      snapshotRevision := revision
      executionStateKnown := true
      trace := s.view.trace.store reply } }

/-- Where the run goes after a stored reply. -/
def proceed (s : Runtime) (expired halted paused : Bool) (now : Duration) : Runtime :=
  let next :=
    if expired then s.terminate .expired "expired"
    else if halted then s.terminate .halted "halt"
    else s.transition (if paused then .paused else .running)
  { next with nextTick :=
      if expired || halted then none
      else if !paused then some (now.saturatingAdd runInterval)
      else next.nextTick }

def validated (s : Runtime) (result : Except Error NativeReply) : Except Error NativeReply := do
  let reply ← result
  validateNative s.spec s.view.trace reply s.initializing
  return reply

end Runtime

/-! ## The actor -/

/-- What the actor did.  `dropped` ends an exchange without a validated reply, and
`parked` is a Pause that waits for one to end and `skipped` an envelope whose client
had gone. -/
inductive Deed where
  | began (generation : UInt64)
  | spawned (spec : SpawnSpec)
  | reaped
  | requested (request : WireRequest)
  | validated (reply : NativeReply)
  | dropped
  | parked (reply : Nat)
  | skipped (reply : Nat)
  | replied (reply : Nat) (result : Except Error Answer)

/-- The source's fields, and two that nothing reads: `taken` has an entry for every
envelope taken from a mailbox, whether its client had gone by then. -/
structure Owner where
  instanceId : String
  session : Option Runtime := none
  child : Option SpawnSpec := none
  exchange : Option WireRequest := none
  pending : Option Envelope := none
  pause : Option Envelope := none
  nextSession : UInt64 := 1
  nextGeneration : UInt64 := 1
  published : PublicView := { session := none }
  stopped : Bool := false
  taken : List Bool := []
  log : List Deed := []

namespace Owner

def emit (o : Owner) (deed : Deed) : Owner := { o with log := o.log ++ [deed] }

def updateSession (o : Owner) (f : Runtime → Runtime) : Owner :=
  { o with session := o.session.map f }

def snapshot (o : Owner) : PublicView := { session := o.session.map (·.view) }

def publish (o : Owner) : Owner := { o with published := o.snapshot }

def boundedValue (fits : PublicView → Bool) (view : PublicView) : Except Error PublicView :=
  if fits view then .ok view
  else .error (({ status := 422, message := "Owned VM view exceeds 1 MiB" } : Error).withCode
    .resourceLimit)

def reject (o : Owner) (message : Envelope) (error : Error) : Owner :=
  o.emit (.replied message.reply (.error error))

def answer (o : Owner) (fits : PublicView → Bool) (message : Envelope) (ack : Ack) : Owner :=
  let view := { o.snapshot with commandId := some message.request.commandId, ack := some ack }
  o.emit (.replied message.reply ((boundedValue fits view).map fun view =>
    { view, reason := if ack = .outcomeUnknown then some (.uncertain .disconnected) else none }))

def stamp (o : Owner) (request : ControlRequest) (ack : Ack) : Owner :=
  o.updateSession (·.stamp request ack)

/-- `self.exchange = None`. -/
def abandon (o : Owner) : Owner :=
  match o.exchange with
  | none => o
  | some _ => { o with exchange := none }.emit .dropped

def rejectPending (o : Owner) (error : Error) : Owner :=
  match o.pending with
  | none => o
  | some message => { o with pending := none }.reject message error

def rejectPause (o : Owner) (error : Error) : Owner :=
  match o.pause with
  | none => o
  | some message => { o with pause := none }.reject message error

def rejectWaiters (o : Owner) (error : Error) : Owner :=
  (o.rejectPending error).rejectPause error

def dispose (o : Owner) (reaped : Option DisposalFailure) : Owner × Option Error :=
  match o.child, reaped with
  | none, _ => (o.updateSession (·.disposed true), none)
  | some _, none => (({ o with child := none }.emit .reaped).updateSession (·.disposed true), none)
  | some _, some failure => (o.updateSession (·.disposed false), some failure.error)

def retire (o : Owner) (state : State) (reason : String) (unknown : Bool)
    (reaped : Option DisposalFailure) : Owner :=
  ((o.abandon.updateSession (·.retired state reason unknown)).dispose reaped).1

def scopeMatches (o : Owner) (request : ControlRequest) : Bool :=
  o.session.any fun s =>
    request.backendInstanceId == some s.view.backendInstanceId
      && request.sessionId == some s.view.sessionId
      && request.runId == some s.view.runId
      && request.runGeneration == some s.view.runGeneration

def controlExhausted : Error :=
  (Error.conflict "Owned VM control revisions exhausted").withCode .resourceLimit

def advanceControl (o : Owner) (s : Runtime) : Except Error Owner :=
  match checkedAdd s.view.controlRevision 1 with
  | none => .error controlExhausted
  | some revision =>
      .ok { o with session := some { s with view := { s.view with controlRevision := revision } } }

def checkTime (o : Owner) (now : Duration) (reaped : Option DisposalFailure) : Owner :=
  match o.session with
  | none => o
  | some s =>
      if s.view.state.terminal || s.expiring then o
      else if now < s.lastClock then
        let unknown := o.exchange.isSome
        ((o.retire .failed "clock_rollback" unknown reaped).rejectWaiters
          (if unknown then uncertain .timeout
            else .conflict "Owned VM clock moved backwards")).publish
      else if s.deadline ≤ now then
        let s := { s with lastClock := now, nextTick := none }
        if o.exchange.isSome then { o with session := some (s.transition .stopping) }.publish
        else ({ o with session := some s }.retire .expired "expired" false reaped).publish
      else { o with session := some { s with lastClock := now } }

/-- `dispatch`; an error leaves the actor as `dispatch` leaves it. -/
def dispatch (o : Owner) (s : Runtime) : Owner × Option Error :=
  if o.exchange.isSome then (o, some busy)
  else if s.view.trace.executedCount ≥ 16 then
    (o, some ((Error.conflict "Owned VM dispatch budget exhausted").withCode .resourceLimit))
  else
    match checkedAdd s.nextRequest 1 with
    | none => (o, some ((Error.conflict "Owned VM request IDs exhausted").withCode .resourceLimit))
    | some nextRequest =>
        let o := { o with session := some { s with nextRequest, nextTick := none } }
        match o.child with
        | none => (o, some dependency)
        | some _ =>
            let request : WireRequest :=
              { id := s.nextRequest
                generation := s.spec.generation
                count := s.view.trace.executedCount
                operation := 2 }
            ({ o with exchange := some request }.emit (.requested request), none)

/-- The run that `start` begins, before its helper is spawned. -/
def freshRun (o : Owner) (message : Envelope) (spec : SpawnSpec) (now : Duration) : Runtime where
  view :=
    { backendInstanceId := o.instanceId
      sessionId := "session-" ++ toString spec.session
      runId := "run-" ++ toString spec.generation
      runGeneration := spec.generation
      fixture := spec.fixture
      lastCommand := some ⟨message.request.commandId, message.request.action, .pending⟩ }
  spec
  created := now
  lastClock := now

/-- The part of `start` that follows the new run: spawn its helper and wait for it. -/
def launch (o : Owner) (outside : Outside) (message : Envelope) (s : Runtime) : Owner :=
  match outside.spawned with
  | .ok build =>
      let request : WireRequest :=
        { id := 0, generation := s.spec.generation, count := 0, operation := 0 }
      let s := { s with view := { s.view with buildId := some build } }
      ((({ o with session := some s, child := some s.spec, exchange := some request
                  pending := some message }.emit (.spawned s.spec)).emit
        (.requested request))).publish
  | .error failure =>
      let s := (s.terminate .failed "dependency_unavailable").stamp message.request .rejected
      { o with session := some s }.publish.reject message failure.error

def start (o : Owner) (outside : Outside) (message : Envelope) (fixture : Fixture)
    (sessionId : UInt64) : Owner :=
  if o.child.isSome then o.reject message (.conflict "Previous VM helper has not been reaped")
  else
    match checkedAdd o.nextGeneration 1 with
    | none =>
        (o.updateSession (·.terminate .failed "resource_limit")).publish.reject message
          ((Error.conflict "Owned VM generations exhausted").withCode .resourceLimit)
    | some nextGeneration =>
        let s := o.freshRun message { fixture, session := sessionId, generation := o.nextGeneration }
          outside.now
        let o := { o with nextGeneration, session := some s }.emit (.began s.spec.generation)
        o.publish.launch outside message s

/-- The part of Stop, Close and Reset before the disposal: what is in flight is given up. -/
def withdraw (o : Owner) (s : Runtime) (uncertainStep : Bool) : Owner :=
  ({ o with session := some (s.quiesced uncertainStep) }.abandon.rejectWaiters
    (if uncertainStep then uncertain .disconnected else busy)).publish

/-- The part of Stop, Close and Reset after the disposal, on the run `s` they found. -/
def release (o : Owner) (outside : Outside) (message : Envelope) (s : Runtime)
    (uncertainStep : Bool) : Owner :=
  let ack := if uncertainStep then Ack.outcomeUnknown else .completed
  match message.request.action with
  | .reset => o.start outside message s.spec.fixture s.spec.session
  | .close => { o with session := none }.publish.answer outside.fits message ack
  | _ =>
      ((o.updateSession (·.terminate .stopped "stopped")).stamp message.request ack).publish.answer
        outside.fits message ack

/-- Stop, Close and Reset: a helper that cannot be reaped leaves the run its identity. -/
def quiesce (o : Owner) (outside : Outside) (message : Envelope) (s : Runtime) : Owner :=
  let uncertainStep := o.exchange.isSome && !s.initializing
  match (o.withdraw s uncertainStep).dispose outside.reaped with
  | (o, some error) => (o.stamp message.request .rejected).publish.reject message error
  | (o, none) => o.release outside message s uncertainStep

/-- The part of `handle` that follows the control revision. -/
def control (o : Owner) (outside : Outside) (message : Envelope) (s : Runtime) : Owner :=
  match message.request.action with
  | .run =>
      let s := { s.transition .running with
        nextTick := some (outside.now.saturatingAdd runInterval) }
      { o with session := some (s.stamp message.request .completed) }.publish.answer
        outside.fits message .completed
  | .step =>
      let s := s.transition .stepping
      match { o with session := some s, pending := some message }.dispatch s with
      | (o, none) => o.publish
      | (o, some error) =>
          ((o.retire .failed "resource_limit" false outside.reaped).rejectPending error).publish
  | .pause =>
      let s := { s with nextTick := none }
      if o.exchange.isSome then
        ({ o with session := some (s.transition .pausing), pause := some message }.emit
          (.parked message.reply)).publish
      else
        { o with session := some ((s.transition .paused).stamp message.request .completed) }.publish.answer
          outside.fits message .completed
  | _ => o.quiesce outside message s

/-- Run and Step need an idle, paused run that is still as the client saw it. -/
def precondition (o : Owner) (request : ControlRequest) (s : Runtime) : Option Error :=
  if request.action = .run ∨ request.action = .step then
    if o.exchange.isSome || s.view.state != .paused then some busy
    else if request.expectedControlRevision != some s.view.controlRevision
        || (request.action == .step
          && request.expectedExecutedCount != some s.view.trace.executedCount) then
      some ((Error.conflict "Owned VM control precondition changed").withCode .staleGeneration)
    else none
  else if request.action = .pause ∧ o.pause.isSome then some busy
  else none

/-- The part of `handle` for a request that names the run. -/
def perform (o : Owner) (outside : Outside) (message : Envelope) (s : Runtime) : Owner :=
  match o.precondition message.request s with
  | some error => o.reject message error
  | none =>
      match o.advanceControl s with
      | .error error =>
          let unknown := o.exchange.isSome && !s.initializing
          ((o.retire .failed "resource_limit" unknown outside.reaped).rejectWaiters
            (if unknown then uncertain .disconnected else error)).publish.reject message error
      | .ok o =>
          match (o.stamp message.request .pending).session with
          | none => o
          | some s => (o.stamp message.request .pending).control outside message s

def create (o : Owner) (outside : Outside) (message : Envelope) (fixture : Fixture) : Owner :=
  if o.session.isSome || o.child.isSome then
    o.reject message (.conflict
      "An owned VM session already exists; reset or close it explicitly")
  else if o.nextSession = UInt64.ofNat (2 ^ 64 - 1) then
    o.reject message ((Error.conflict "Owned VM session IDs exhausted").withCode .resourceLimit)
  else { o with nextSession := o.nextSession + 1 }.start outside message fixture o.nextSession

def handle (o : Owner) (outside : Outside) (message : Envelope) : Owner :=
  if created : message.request.action = .create then
    o.create outside message (message.request.fixture.get (message.request.created created))
  else if !o.scopeMatches message.request then
    o.reject message ((Error.conflict "Owned VM run identity is stale").withCode .staleGeneration)
  else
    let o := o.checkTime outside.checked outside.checkReaped
    match o.session with
    | none => o
    | some s => o.perform outside message s

/-- Take an envelope from a mailbox; a client that is gone is not answered. -/
def receive (o : Owner) (outside : Outside) (request : ControlRequest) (closed : Bool) : Owner :=
  let message : Envelope := { request, reply := o.taken.length }
  let o := { o with taken := o.taken ++ [closed] }
  if closed then o.emit (.skipped message.reply) else o.handle outside message

def due (o : Owner) (now : Duration) : Bool :=
  o.session.any fun s => s.view.state == .running && s.nextTick.any fun at' => at' ≤ now

def tick (o : Owner) (outside : Outside) : Owner :=
  let o := o.checkTime outside.checked outside.checkReaped
  match o.session with
  | none => o
  | some s =>
      if o.due outside.now && o.exchange.isNone then
        match o.dispatch s with
        | (o, none) => o.publish
        | (o, some error) =>
            ((o.retire .failed "resource_limit" false outside.reaped).rejectWaiters error).publish
      else o

/-- A reply that is not believed. -/
def fail (o : Owner) (outside : Outside) (s : Runtime) (error : Error) : Owner :=
  let error :=
    if s.initializing then
      ({ status := 503, message := "Owned VM helper initialization failed" } : Error).withCode
        .dependencyUnavailable
    else error
  ((o.retire (if s.expiring then .expired else .failed)
      (if s.expiring then "expired" else "helper_failure") (!s.initializing)
      outside.reaped).rejectWaiters error).publish

/-- A believed reply that refuses the instruction. -/
def refuse (o : Owner) (outside : Outside) (status : UInt16) : Owner :=
  let expired := status == 5
  let error :=
    ({ status := if expired then 410 else 409
       message := "Owned VM helper refused this instruction before dispatch" } : Error).withCode
      (if expired then .timeout else .stateConflict)
  ((o.retire (if expired then .expired else .failed)
      (if expired then "expired" else "native_rejection") false
      outside.reaped).rejectWaiters error).publish

def answerPending (o : Owner) (fits : PublicView → Bool) : Owner :=
  match o.pending with
  | none => o
  | some message => { o with pending := none }.answer fits message .completed

def answerPause (o : Owner) (fits : PublicView → Bool) : Owner :=
  match o.pause with
  | none => o
  | some message => { o with pause := none }.answer fits message .completed

/-- Answer who waits, each stamped as the last command first. -/
def settleWaiters (o : Owner) (outside : Outside) : Owner :=
  let o := o.pending.elim o fun message => o.stamp message.request .completed
  let o := o.pause.elim o fun message => o.stamp message.request .completed
  (o.publish.answerPending outside.fits).answerPause outside.fits

/-- What follows once the view holds the reply and the run has its next state. -/
def conclude (o : Owner) (outside : Outside) (s : Runtime) (advances ended : Bool) : Owner :=
  let advanced := if advances then o.advanceControl s else .ok o
  match advanced with
  | .error error =>
      ((o.retire .failed "resource_limit" false outside.reaped).rejectWaiters error).publish
  | .ok o =>
      if ended then
        match o.dispose outside.reaped with
        | (o, some error) => (o.rejectWaiters error).publish
        | (o, none) => o.settleWaiters outside
      else o.settleWaiters outside

/-- A believed reply that executed the instruction, or started the helper. -/
def accept (o : Owner) (outside : Outside) (s : Runtime) (reply : NativeView) : Owner :=
  match checkedAdd s.view.snapshotRevision 1 with
  | none =>
      ((o.retire .failed "resource_limit" (!s.initializing) outside.reaped).rejectWaiters
        ((Error.conflict "Owned VM snapshot revisions exhausted").withCode .resourceLimit)).publish
  | some revision =>
      let halted := reply.state == .halted
      let expired := s.expiring || s.deadline ≤ outside.now
      let paused := s.initializing || s.view.state != .running || o.pause.isSome
      let next := (s.store revision reply).proceed expired halted paused outside.now
      { o with session := some next }.conclude outside next (paused || halted || expired)
        (expired || halted)

def complete (o : Owner) (outside : Outside) (result : Except Error NativeReply) : Owner :=
  match o.session with
  | none => o
  | some s =>
      match s.validated result with
      | .error error => (o.emit .dropped).fail outside s error
      | .ok reply =>
          let o := o.emit (.validated reply)
          if reply.status != 0 then o.refuse outside reply.status else o.accept outside s reply.view

def initial (instanceId : String) : Owner := { instanceId }

/-- One round of the loop, when the event can come: a reply needs an exchange, the
timer a run that has not ended, and nothing follows a shutdown. -/
def turn (o : Owner) (t : Turn) : Option Owner :=
  if o.stopped then none
  else
    let o := o.checkTime t.now t.reaped
    match t.event with
    | .shutdown =>
        let o := o.abandon.rejectWaiters (uncertain .disconnected)
        some { (o.dispose t.outside.reaped).1 with stopped := true }
    | .message request closed => some (o.receive t.outside request closed)
    | .reply result =>
        if o.exchange.isSome then some ({ o with exchange := none }.complete t.outside result)
        else none
    | .timer =>
        if o.session.any fun s => !s.view.state.terminal then some (o.tick t.outside) else none
    | .mailboxClosed => some o

end Owner

end Reb.Debugger
