/-
# Console.NativeConsole -- one connection to a browser, and the console of the backend

A session numbers its requests and waits for each reply.  While it waits it is
poisoned; a reply that does not come, or is none, leaves it so.

Recorded beside the session (`Peer`): every exchange in order with its answer, what the
browser at the other end holds armed, and whether an arm was never answered.  A browser
that lists what it holds lists it truthfully; where it lists nothing, an arm may have
taken effect, and what was armed may be dropped.

At most one connection is open: to a disposable browser, or to the capture browser over
its one binding.  The binding is lent to a connection and handed back by a Stop that
confirmed its cleanup; every other end of it is final.

Operations run one at a time, as the lock on the session has it.  Recorded beside the
state: the sessions with the capture browser that have ended.
-/
import Reb.Console.ConsoleReply

namespace Reb.Console

set_option autoImplicit false

open Reb.Theory

def LOST_EXCHANGE : String :=
  "a native exchange failed or timed out, and an ambiguous pipe is never reused"

def LOST_HANDSHAKE : String := "the capture browser did not answer its first document listing"

def LOST_EXPIRED : String := "its one-hour connection limit elapsed"

def LOST_EXITED : String := "its bridge process exited"

def LOST_CLEANUP : String := "live value cleanup was not confirmed"

def LOST_DOCUMENT_START : String :=
  "the capture browser did not confirm clearing document-start scripts"

def DOCUMENT_START_UNCONFIRMED : String :=
  "The capture browser did not confirm that it cleared the armed document-start scripts. " ++
    "The Console binding was ended, so the browser drops them once it notices; until then new matching " ++
    "documents can still run them. Restart the capture before relying on documents running nothing."

/-- `r#"{"operation":"clear"}"#`. -/
def clearCommand : String := "\x7b\"operation\":\"clear\"\x7d"

/-! ## The other end -/

/-- How a reply arrives: not in time, cut off, or as bytes. -/
inductive Answer where
  | timedOut
  | broken
  | bytes (header payload : List UInt8)

/-- The other end during one operation: the answer to each request, and what becomes of the
armed set where the answer does not list it. -/
structure Wire where
  answers : Nat → Answer
  effects : Nat → Bool := fun _ => false

/-- What an exchange is made for: a command of a caller, the cleanup of a Stop, or an arm. -/
inductive Purpose where
  | command | release | arm
  deriving DecidableEq, Repr

inductive Event where
  | connected (target : Nat)
  | exchanged (purpose : Purpose) (operation target : Nat) (source : String)
      (answer : Option Value)

structure Peer where
  log : List Event := []
  armed : Bool := false
  unanswered : Bool := false

/-- What the browser holds after an exchange, given what the reply lists, if it lists. -/
def Peer.armedAfter (peer : Peer) (purpose : Purpose) (listed : Option Bool) (effect : Bool) : Bool :=
  match listed with
  | some holds => holds
  | none => if purpose == .arm then effect else peer.armed && effect

/-! ## The session -/

structure Health where
  elapsedSeconds : Nat := 0
  bridgeExited : Bool := false
  browserExited : Bool := false
  deriving DecidableEq, Repr

structure Session where
  id : String
  bindingId : String
  ownsBrowser : Bool
  nextRequest : Nat := 1
  poisoned : Bool := false
  live : Bool
  liveTarget : Option Nat := none
  staleTarget : Option Nat := none
  nativeTargets : List Nat := []
  accessedTargets : List Nat := []
  documentStart : Bool := false
  documentStartArmed : Bool := false
  peer : Peer := {}

inductive Selection where
  | selected (target : Nat) | stale (target : Nat) | none
  deriving DecidableEq, Repr

structure LiveListing where
  value : Value
  bindingId : String
  selectedTargetId : Option Nat
  selection : Selection

/-- The failures of an exchange, as they are passed on. -/
def failed (error : Error) : Error :=
  let error := if error.status == 500 then
      { error with message :=
          "Native browser or console disconnected; rebuild Brave with native console support" }
    else error
  if error.reason.code != .commandOutcomeUnknown then
    { error with reason :=
        .uncertain (if error.reason.code == .protocolError then .invalidReply else .transportFailure) }
  else error

/-- The reply to a request, read off the wire. -/
def received (crates : Crates) (request operation : Nat) (session : String) :
    Answer → Except Error Value
  | .timedOut =>
      .error ⟨408,
        "Native console timed out; execution may have occurred. Restart the session",
        .uncertain .timeout⟩
  | .broken => .error (failed ⟨500, "", {}⟩)
  | .bytes header payload =>
      if header.length < 32 then .error (failed ⟨500, "", {}⟩)
      else
        match ResponseHeader.parse header request operation with
        | .error error => .error (failed error)
        | .ok parsed =>
            if payload.length < parsed.bytes then .error (failed ⟨500, "", {}⟩)
            else
              match parsed.value crates (payload.take parsed.bytes) session with
              | .error error => .error (failed error)
              | .ok value =>
                  .ok { value with requestId := if parsed.kind == 11 then some request else none }

namespace Session

variable (crates : Crates) (wire : Wire) (session : Session)

/-- Why this session can no longer be used, decided without an exchange. -/
def ended (health : Health) : Option String :=
  if session.poisoned then some LOST_EXCHANGE
  else if 3600 ≤ health.elapsedSeconds then some LOST_EXPIRED
  else if health.bridgeExited || (session.ownsBrowser && health.browserExited) then some LOST_EXITED
  else none

/-- The session after a request whose reply did not come. -/
def unanswered (purpose : Purpose) (operation target : Nat) (source : String) : Session :=
  let id := session.nextRequest
  { session with
    poisoned := true
    nextRequest := id + 1
    peer :=
      { log := session.peer.log ++ [.exchanged purpose operation target source none]
        armed := session.peer.armedAfter purpose none (wire.effects id)
        unanswered := session.peer.unanswered || purpose == .arm } }

/-- The session after a reply. -/
def answered (purpose : Purpose) (operation target : Nat) (source : String) (value : Value) : Session :=
  let id := session.nextRequest
  let listed := if operation == 4 then value.scripts.map (!·.isEmpty) else none
  { session with
    poisoned := false
    nextRequest := id + 1
    documentStart := if operation == 1 then value.documentStartSupported else session.documentStart
    documentStartArmed := listed.getD session.documentStartArmed
    peer :=
      { log := session.peer.log ++ [.exchanged purpose operation target source (some value)]
        armed := session.peer.armedAfter purpose listed (wire.effects id)
        unanswered := session.peer.unanswered } }

def exchange (operation target : Nat) (source : String) (purpose : Purpose := .command) :
    Except Error Value × Session :=
  let id := session.nextRequest
  if id + 1 == 2 ^ 64 then
    (.error { Error.conflict "Native request IDs exhausted" with reason := { code := .resourceLimit } },
      { session with poisoned := true })
  else
    match received crates id operation session.id (wire.answers id) with
    | .error error => (.error error, session.unanswered wire purpose operation target source)
    | .ok value => (.ok value, session.answered wire purpose operation target source value)

def selection : Selection :=
  match session.liveTarget, session.staleTarget with
  | some target, _ => .selected target
  | none, some target => .stale target
  | none, none => .none

/-- The session once a listing is read: a selected document that is not listed is stale. -/
def relisted (ids : List Nat) : Session :=
  match session.liveTarget with
  | some target =>
      if ids.contains target then { session with nativeTargets := ids }
      else { session with nativeTargets := ids, liveTarget := none, staleTarget := some target }
  | none => { session with nativeTargets := ids }

def listLive : Except Error LiveListing × Session :=
  match session.exchange crates wire 1 0 "" with
  | (.error error, session) => (.error error, session)
  | (.ok value, session) =>
      let session := session.relisted (value.listed.getD [])
      (.ok ⟨value, session.bindingId, session.liveTarget, session.selection⟩, session)

/-- The loop of `release_live_values`, and what follows it. -/
def releaseLoop : List Nat → Session → Except Error Unit × Session
  | [], session => (.ok (), { session with accessedTargets := [] })
  | target :: rest, session =>
      match session.exchange crates wire 3 target clearCommand .release with
      | (.error error, session) => (.error error, session)
      | (.ok result, session) =>
          if result.runtimeStatus != some "ok" && result.status != some "stale_target" then
            (.error (.conflict
              "Live value cleanup was not confirmed; restart the capture binding"), session)
          else releaseLoop rest session

def releaseLiveValues : Except Error Unit × Session :=
  releaseLoop crates wire session.accessedTargets session

def clearDocumentStart : Except Error Unit × Session :=
  match session.exchange crates wire 4 0 clearCommand with
  | (.ok result, session) =>
      if result.documentStartStatus == some "ok" && !session.documentStartArmed then (.ok (), session)
      else (.error (.conflict DOCUMENT_START_UNCONFIRMED), session)
  | (.error error, session) =>
      (.error { Error.conflict DOCUMENT_START_UNCONFIRMED with reason := error.reason }, session)

end Session

end Reb.Console

namespace Reb.Console

/-! # The console -/

open Reb.Theory

/-- The binding of the live capture. -/
inductive LiveBridge where
  | absent
  | connecting
  | ready (session : Session)
  | connected
  | lost (why : String)

structure Options where
  crates : Crates
  liveDirectory : Bool
  liveDocumentStartPermitted : Bool

structure Inner where
  session : Option Session := none
  live : LiveBridge := .absent
  handshaking : Option Session := none
  documentStartUnconfirmed : Bool := false
  ended : List Session := []

/-- What an operation meets outside the backend. -/
structure Outside where
  wire : Wire
  health : Health := {}
  readyHealth : Health := {}
  available : Bool := true
  spawned : Option String := none
  random : Option Nat := none

/-! ## Messages -/

def LIVE_CONNECTING : String :=
  "Waiting for the capture browser to connect its Console binding. " ++
    "Its documents appear here once it answers. No second browser profile is opened."

def LIVE_UNAVAILABLE : String :=
  "Live capture console binding unavailable. Rebuild the matching browser and backend, " ++
    "then restart the capture. No second browser profile was launched."

def DOCUMENT_START_LIVE_RETIRE : String :=
  "This Console connection failed while document-start scripts may be armed. " ++
    "They stay in the capture browser until the connection ends; Stop ends it."

def DOCUMENT_START_UNAVAILABLE : String :=
  "Document-start Console scripts are not available in this session. Rebuild the pinned browser, " ++
    "then start a disposable Console session with document_start enabled, or relaunch the live " ++
    "capture with REB_CONSOLE_DOCUMENT_START=1 (an agent session: start_live_session with " ++
    "document_start true). Nothing is relaunched automatically."

def DOCUMENT_START_BROWSER_UNSUPPORTED : String :=
  "This capture was started with the document-start permission, but its browser " ++
    "does not advertise document-start support: it was built without the Native Console v3 overlay. " ++
    "Use a Brave built from this checkout's pinned revisions. Nothing is relaunched automatically."

def SESSION_CHANGED : String :=
  "Native console session changed: session_id does not name the open Console connection. " ++
    "Read get_native_console for the current session_id. No command was sent."

def lostMessage (why : String) : String :=
  "The live capture's Console binding ended: " ++ why ++
    ". The capture browser connects its binding once, " ++
    "so restart the capture to use the live Console again. No second browser profile was launched."

def staleMessage (target : Nat) : String :=
  "Selected document changed: document " ++ Nat.repr target ++
    " was replaced or closed (navigation, reload or frame removal), which ended its authorization. " ++
    "Read get_native_console for current ids, then send stop and connect_live with the new " ++
    "document's id. Nothing was run."

def alreadyOpen (session : Session) : String :=
  if session.live then
    "A live Console connection is already open (session_id " ++ session.id ++ ", document " ++
      ((session.liveTarget.map Nat.repr).getD "none") ++
      "). To use another document, send stop with that session_id, then connect_live with the new target_id."
  else
    "A disposable Console session is already open (session_id " ++ session.id ++
      "). Send stop with that session_id first."

/-! ## What is returned -/

inductive Shown where
  | value (value : Value)
  | listing (listing : LiveListing)
  | stopped
  | refused (session text : String)
  | unavailable (session message : String)

def staleDocument (session : String) (target : Nat) : Shown := .refused session (staleMessage target)

def notSelected (session : Session) (target : Nat) : Shown :=
  match session.liveTarget, session.staleTarget with
  | none, some stale => staleDocument session.id stale
  | selected, _ =>
      .refused session.id
        ("Selected document changed: document " ++ Nat.repr target ++
          " is not the document this connection selected (" ++ (selected.map Nat.repr).getD "none" ++
          "). Live commands run only in the connect_live document; to use " ++ Nat.repr target ++
          ", send stop, then connect_live with target_id " ++ Nat.repr target ++ ". Nothing was run.")

/-- `document_start`: what the backend composes itself, or what the browser answered. -/
inductive DocumentStartRead where
  | composed (state : String) (sessionId : Option String) (status message : String)
  | answered (value : Value)

inductive StateRead where
  | disposable (available : Bool) (sessionId : Option String)
  | listed (binding : String) (listing : LiveListing)
  | unlisted (binding message : String)

/-! ## Ending a session -/

namespace Inner

variable (options : Options) (inner : Inner) (outside : Outside)

def unavailableMessage (session : Session) : String :=
  if session.live && options.liveDocumentStartPermitted then DOCUMENT_START_BROWSER_UNSUPPORTED
  else DOCUMENT_START_UNAVAILABLE

def retire (session : Session) : Inner :=
  { inner with
    documentStartUnconfirmed :=
      inner.documentStartUnconfirmed || (session.live && session.documentStartArmed)
    ended := inner.ended ++ if session.live then [session] else [] }

def lose (session : Option Session) (why : String) : Inner :=
  let replaced := { inner with live := .lost why }
  let retired := match inner.live with
    | .ready ready => replaced.retire ready
    | _ => replaced
  match session with
  | some session => retired.retire session
  | none => retired

def end_ (session : Session) (why : String) : Inner :=
  if session.live then inner.lose (some session) why else inner.retire session

/-! ## Reads -/

def bindingName : String :=
  match inner.live with
  | .absent => "absent"
  | .connecting => "connecting"
  | .ready _ => "ready"
  | .connected => "connected"
  | .lost _ => "lost"

/-- The end of a state read: the idle binding is the only source of live documents. -/
def readyState : StateRead × Inner :=
  let unlisted (inner : Inner) : StateRead :=
    .unlisted inner.bindingName
      (match inner.live with
      | .connecting => LIVE_CONNECTING
      | .lost why => lostMessage why
      | _ => LIVE_UNAVAILABLE)
  match inner.live with
  | .ready session =>
      match session.ended outside.readyHealth with
      | some why => (unlisted (inner.lose none why), inner.lose none why)
      | none =>
          match session.listLive options.crates outside.wire with
          | (.ok listing, session) => (.listed "ready" listing, { inner with live := .ready session })
          | (.error _, session) =>
              let lost := { inner with live := .ready session }.lose none LOST_EXCHANGE
              (unlisted lost, lost)
  | _ => (unlisted inner, inner)

/-- The session that a read or an action finds ended is ended first. -/
def settled : Inner :=
  match inner.session with
  | none => inner
  | some session =>
      match session.ended outside.health with
      | none => inner
      | some why => { inner with session := none }.end_ session why

def state : StateRead × Inner :=
  let inner := inner.settled outside
  match inner.session with
  | none =>
      if !options.liveDirectory then (.disposable outside.available none, inner)
      else inner.readyState options outside
  | some session =>
      if !session.live || !options.liveDirectory then
        (.disposable outside.available (some session.id), inner)
      else
        match session.listLive options.crates outside.wire with
        | (.ok listing, session) => (.listed "connected" listing, { inner with session := some session })
        | (.error _, session) =>
            ({ inner with session := none }.end_ session LOST_EXCHANGE).readyState options outside

def documentStart (after : Nat) : Except Error DocumentStartRead × Inner :=
  match inner.session with
  | none =>
      if inner.documentStartUnconfirmed then
        (.ok (.composed "idle" none "unconfirmed" DOCUMENT_START_UNCONFIRMED), inner)
      else
        (.ok (.composed "idle" none "idle"
          "Connect the Console with document-start scripts enabled, then arm a rule."), inner)
  | some session =>
      let ended := if session.ownsBrowser then outside.health.browserExited
        else outside.health.bridgeExited
      if session.poisoned || 3600 ≤ outside.health.elapsedSeconds || ended then
        let composed := DocumentStartRead.composed "ready" (some session.id)
        (.ok (if !session.live || !session.documentStartArmed then
            composed "error"
              "This Console session ended. Start another session; armed scripts and their output are gone."
          else if ended then composed "unconfirmed" DOCUMENT_START_UNCONFIRMED
          else composed "unconfirmed" DOCUMENT_START_LIVE_RETIRE), inner)
      else if !session.documentStart then
        (.ok (.composed "ready" (some session.id) "unavailable"
          (unavailableMessage options session)), inner)
      else
        let command := options.crates.toString
          (.object [("operation", .string "state"), ("after", .string (Nat.repr after))])
        match session.exchange options.crates outside.wire 4 0 command with
        | (.error error, session) => (.error error, { inner with session := some session })
        | (.ok value, session) => (.ok (.answered value), { inner with session := some session })

end Inner

end Reb.Console
