/-
# Console.ConsoleAction -- the actions of the console, and its runs

A command for the capture browser goes to the selected document only, after a listing
that still has it.  A Stop cleans up what the connection used before the binding is
handed back.
-/
import Mathlib.Data.List.Sort
import Reb.Console.NativeConsole

namespace Reb.Console

set_option autoImplicit false

open Reb.Theory

/-- A request that was checked: what is sent, or the reply that needs no exchange. -/
inductive Prepared where
  | reply (result : Except Error Shown)
  | send (operation target : Nat) (source : String) (purpose : Purpose)

def Session.connect (session : Session) (id : String) (target : Nat) : Session :=
  { session with
    id
    liveTarget := some target
    staleTarget := none
    peer := { session.peer with log := session.peer.log ++ [.connected target] } }

/-- The reply of the browser that the document of a command is gone. -/
def Session.staled (session : Session) (target : Nat) (value : Value) : Value × Session :=
  match value.body with
  | .text "stale_target" type _ truncated =>
      ({ value with body := .text "stale_target" type (staleMessage target) truncated },
        { session with liveTarget := none, staleTarget := some target })
  | _ => (value, session)

namespace Inner

variable (options : Options) (inner : Inner) (outside : Outside) (request : Json)

/-! ## Start -/

def startChecked : Except Error Unit := do
  let allowed := if (find request "document_start").isSome then ["action", "url", "document_start"]
    else ["action", "url"]
  fields request allowed "Native console start"
  if let some session := inner.session then throw (.conflict (alreadyOpen session))
  if !outside.available then
    throw ⟨503,
      "Native console requires its bundled helper and a rebuilt custom Brave executable",
      { code := .dependencyUnavailable }⟩
  let address ← text (get request "url") "Console URL" 4096 false false
  match options.crates.parseUrl address with
  | none => throw (.bad "Provide an HTTP or HTTPS URL")
  | some url =>
      if !(["http", "https"].contains url.scheme) || !url.username.isEmpty || url.password.isSome then
        throw (.bad "Console URL must use HTTP or HTTPS without embedded credentials")
  match find request "document_start" with
  | none | some (.bool _) => pure ()
  | some _ =>
      throw (.bad "document_start must be true or false on a native console start")

/-- The disposable browser is launched with a session of its own. -/
def start : Except Error Shown × Inner :=
  match inner.startChecked options outside request with
  | .error error => (.error error, inner)
  | .ok () =>
      match outside.spawned with
      | none =>
          (.error ⟨503, "Native console process could not start",
            { code := .dependencyUnavailable }⟩, inner)
      | some id =>
          let session : Session := { id, bindingId := id, ownsBrowser := true, live := false }
          match session.exchange options.crates outside.wire 1 0 "" with
          | (.ok value, session) => (.ok (.value value), { inner with session := some session })
          | (.error error, session) => (.error error, inner.retire session)

/-! ## Connect -/

def connectChecked : Except Error (Nat × Nat) := do
  fields request ["action", "target_id", "binding_id", "confirm_live"] "Native console live connect"
  if let some session := inner.session then throw (.conflict (alreadyOpen session))
  if !isTrue (get request "confirm_live") then
    throw (.bad "Confirm that commands can change the specifically selected captured document")
  let selected ← canonical (get request "target_id") "Console target"
  let binding ← canonical (get request "binding_id") "Console binding"
  return (selected, binding)

def bindLive (selected binding : Nat) : Except Error Shown × Inner :=
  match inner.live with
  | .connecting => (.error (.conflict LIVE_CONNECTING), inner)
  | .lost why => (.error (.conflict (lostMessage why)), inner)
  | .absent | .connected =>
      (.error (.conflict ("The live capture has no native console binding. Restart the capture; " ++
        "a second browser profile was not launched.")), inner)
  | .ready session =>
      if session.bindingId != Nat.repr binding then
        (.error (.conflict ("Live capture binding changed; select and authorize a current document. " ++
          "Read get_native_console for the current binding_id.")), inner)
      else
        match session.ended outside.readyHealth with
        | some why => (.error (.conflict (lostMessage why)), inner.lose none why)
        | none =>
            match session.listLive options.crates outside.wire with
            | (.error error, session) =>
                (.error error, { inner with live := .ready session }.lose none LOST_EXCHANGE)
            | (.ok listing, session) =>
                let listed := { inner with live := .ready session }
                if !session.nativeTargets.contains selected then
                  (.error (.conflict ("Selected live document changed; explicitly select a current " ++
                    "document. Document " ++ Nat.repr selected ++ " is not in the current listing: it " ++
                    "was replaced or closed. Read get_native_console and pick a current id.")), listed)
                else
                  match outside.random with
                  | none => (.error ⟨500, "", {}⟩, listed)
                  | some random =>
                      let next := Nat.repr (max random 1)
                      if next == session.id then
                        (.error (.conflict "Console identity collision; connect again"), listed)
                      else
                        let connected := session.connect next selected
                        let value := { listing.value with sessionId := next }
                        (.ok (.listing ⟨value, session.bindingId, some selected, connected.selection⟩),
                          { inner with live := .connected, session := some connected })

def connectLive : Except Error Shown × Inner :=
  match inner.connectChecked request with
  | .error error => (.error error, inner)
  | .ok (selected, binding) => inner.bindLive options outside selected binding

/-! ## Stop -/

/-- The cleanup is confirmed. -/
def handBack (session : Session) : Except Error Shown × Inner :=
  let session := { session with liveTarget := none, staleTarget := none }
  match inner.live with
  | .connected => (.ok .stopped, { inner with live := .ready session })
  | _ => (.ok .stopped, inner.retire session)

/-- A Stop of a session that is not lent any more. -/
def stopSession (session : Session) : Except Error Shown × Inner :=
  let ended := session.ended outside.health
  if session.live && ended.isNone then
    match session.releaseLiveValues options.crates outside.wire with
    | (.error error, session) => (.error error, inner.end_ session LOST_CLEANUP)
    | (.ok (), session) =>
        if session.documentStartArmed then
          match session.clearDocumentStart options.crates outside.wire with
          | (.error error, session) => (.error error, inner.end_ session LOST_DOCUMENT_START)
          | (.ok (), session) => inner.handBack session
        else inner.handBack session
  else
    match ended.filter fun _ => session.live with
    | some why =>
        let inner := inner.end_ session why
        if session.documentStartArmed then (.error (.conflict DOCUMENT_START_UNCONFIRMED), inner)
        else (.ok .stopped, inner)
    | none => (.ok .stopped, inner.retire session)

def stop : Except Error Shown × Inner :=
  match fields request ["action", "session_id"] "Native console stop" with
  | .error error => (.error error, inner)
  | .ok () =>
      match inner.session with
      | none => (.ok .stopped, inner)
      | some session =>
          if asStr (get request "session_id") != some session.id then
            (.error (.conflict SESSION_CHANGED), inner)
          else { inner with session := none }.stopSession options outside session

/-! ## Commands -/

def allowedFields : String → Option (List String)
  | "targets" => some ["action", "session_id"]
  | "runtime" => some ["action", "session_id", "target_id", "command"]
  | "evaluate" => some ["action", "session_id", "target_id", "source"]
  | "arm_document_start" => some ["action", "session_id", "scripts", "confirm_document_start"]
  | "clear_document_start" => some ["action", "session_id"]
  | _ => none

def runtimeChecked : Except Error Prepared := do
  validateCommand (get request "command")
  let source := options.crates.toString (get request "command")
  if source.utf8ByteSize > RUNTIME_LIMIT then throw (.bad "Runtime command exceeds 65536 bytes")
  let target ← canonical (get request "target_id") "Console target"
  return .send 3 target source .command

def evaluateChecked : Except Error Prepared := do
  let source ← text (get request "source") "JavaScript" SOURCE_LIMIT false true
  if source.isEmpty || source.toList.contains '\x00' then
    throw (.bad "JavaScript must be nonempty and contain no NUL bytes")
  let target ← canonical (get request "target_id") "Console target"
  return .send 2 target source .command

def armChecked : Except Error Json := do
  if !isTrue (get request "confirm_document_start") then
    throw (.bad "Confirm that armed snippets run automatically in every new matching document")
  options.crates.validateDocumentStart (get request "scripts")

/-- What is to be sent for a command; an arm is noted before it is sent. -/
def prepare (session : Session) (action : String) : Prepared × Session :=
  let prepared (checked : Except Error Prepared) : Prepared :=
    match checked with
    | .ok prepared => prepared
    | .error error => .reply (.error error)
  match action with
  | "targets" => (.send 1 0 "" .command, session)
  | "clear_document_start" =>
      if !session.documentStart then
        (.reply (.ok (.unavailable session.id (unavailableMessage options session))), session)
      else (.send 4 0 clearCommand .command, session)
  | "arm_document_start" =>
      if !session.documentStart then
        (.reply (.error ⟨503, unavailableMessage options session,
          { code := .dependencyUnavailable }⟩), session)
      else
        match armChecked options request with
        | .error error => (.reply (.error error), session)
        | .ok scripts =>
            let source := options.crates.toString
              (.object [("operation", .string "arm"), ("scripts", scripts)])
            (if source.utf8ByteSize > RUNTIME_LIMIT then
              .reply (.error (.bad "Document-start command exceeds 65536 bytes"))
            else .send 4 0 source .arm, { session with documentStartArmed := true })
  | "runtime" => (prepared (runtimeChecked options request), session)
  | _ => (prepared (evaluateChecked request), session)

/-- The exchange of a command, and what its reply says of the document. -/
def sendCommand (session : Session) (operation target : Nat) (source : String)
    (purpose : Purpose) : Except Error Shown × Inner :=
  match session.exchange options.crates outside.wire operation target source purpose with
  | (.error error, session) => (.error error, inner.end_ session LOST_EXCHANGE)
  | (.ok value, session) =>
      if session.live then
        (.ok (.value (session.staled target value).1),
          { inner with session := some (session.staled target value).2 })
      else (.ok (.value value), { inner with session := some session })

/-- A command on an open session, which the state does not hold in the meantime. -/
def dispatch (session : Session) (operation target : Nat) (source : String) (purpose : Purpose) :
    Except Error Shown × Inner :=
  if session.live && operation != 1 && operation != 4 then
    if session.liveTarget != some target then
      (.ok (notSelected session target), { inner with session := some session })
    else if !session.nativeTargets.contains target then
      (.ok (staleDocument session.id target),
        { inner with session := some { session with liveTarget := none, staleTarget := some target } })
    else
      match session.listLive options.crates outside.wire with
      | (.error error, session) => (.error error, inner.end_ session LOST_EXCHANGE)
      | (.ok _, session) =>
          if !session.nativeTargets.contains target then
            (.ok (staleDocument session.id target), { inner with session := some session })
          else
            let accessed := if session.accessedTargets.contains target then session.accessedTargets
              else List.orderedInsert (· ≤ ·) target session.accessedTargets
            inner.sendCommand options outside { session with accessedTargets := accessed } operation target
              source purpose
  else inner.sendCommand options outside session operation target source purpose

def command (action : String) : Except Error Shown × Inner :=
  match allowedFields action with
  | none => (.error (.bad "Native console action is invalid"), inner)
  | some allowed =>
      match fields request allowed "Native console action" with
      | .error error => (.error error, inner)
      | .ok () =>
          match inner.session with
          | none =>
              (.error (.conflict (if options.liveDirectory then
                "Start a native console session first: read get_native_console for binding_id and a " ++
                  "target id, then send connect_live with confirm_live true. No command was sent."
              else
                "Start a native console session first: send start with an authorized URL. " ++
                  "No command was sent.")), inner)
          | some session =>
              if asStr (get request "session_id") != some session.id then
                (.error (.conflict SESSION_CHANGED), inner)
              else
                let lent := { inner with session := none }
                match session.ended outside.health with
                | some why =>
                    (.error (.conflict "Native console session ended; start another session"),
                      lent.end_ session why)
                | none =>
                    if action == "targets" && session.live then
                      match session.listLive options.crates outside.wire with
                      | (.ok listing, session) =>
                          (.ok (.listing listing), { inner with session := some session })
                      | (.error error, session) => (.error error, lent.end_ session LOST_EXCHANGE)
                    else
                      match prepare options request session action with
                      | (.reply result, session) => (result, { inner with session := some session })
                      | (.send operation target source purpose, session) =>
                          lent.dispatch options outside session operation target source purpose

def action : Except Error Shown × Inner :=
  let action := (asStr (get request "action")).getD ""
  if action == "start" then inner.start options outside request
  else if action == "connect_live" then inner.connectLive options outside request
  else
    let unnamed := action == "stop" && isNull (get request "session_id")
    match if unnamed then .ok 0 else canonical (get request "session_id") "Console session" with
    | .error error => (.error error, inner)
    | .ok _ =>
        if action == "stop" then inner.stop options outside request
        else inner.command options outside request action

/-! ## Runs -/

/-- The binding is published, if its bridge could be spawned; its handshake is under way. -/
def armLiveBridge (bridge : Option String) : Inner :=
  match bridge with
  | none => {}
  | some id =>
      { live := .connecting
        handshaking := some { id, bindingId := id, ownsBrowser := false, live := true } }

/-- The handshake task: the capture browser's first listing, or the end of the binding. -/
def handshake : Inner :=
  match inner.handshaking with
  | none => inner
  | some session =>
      let done := { inner with handshaking := none }
      match session.listLive options.crates outside.wire with
      | (listed, session) =>
          match inner.live with
          | .connecting =>
              if listed.toBool then { done with live := .ready session }
              else done.lose (some session) LOST_HANDSHAKE
          | _ => { done with ended := done.ended ++ [session] }

end Inner

/-- What a browser holds may be dropped; an arm that was not answered may still take effect. -/
def Session.settle (session : Session) (armed : Bool) : Session :=
  { session with peer :=
      { session.peer with armed := armed && (session.peer.armed || session.peer.unanswered) } }

def LiveBridge.settle (live : LiveBridge) (armed : Bool) : LiveBridge :=
  match live with
  | .ready session => .ready (session.settle armed)
  | live => live

def Inner.settle (inner : Inner) (armed : Bool) : Inner :=
  { inner with
    session := inner.session.map (·.settle armed)
    live := inner.live.settle armed
    handshaking := inner.handshaking.map (·.settle armed)
    ended := inner.ended.map (·.settle armed) }

inductive Move where
  | state (outside : Outside)
  | documentStart (after : Nat) (outside : Outside)
  | action (request : Json) (outside : Outside)
  | handshake (outside : Outside)
  | settle (armed : Bool)

namespace Inner

def step (options : Options) (inner : Inner) : Move → Inner
  | .state outside => (inner.state options outside).2
  | .documentStart after outside => (inner.documentStart options outside after).2
  | .action request outside => (inner.action options outside request).2
  | .handshake outside => inner.handshake options outside
  | .settle armed => inner.settle armed

def run (options : Options) (bridge : Option String) (moves : List Move) : Inner :=
  moves.foldl (step options) (armLiveBridge bridge)

end Inner

end Reb.Console
