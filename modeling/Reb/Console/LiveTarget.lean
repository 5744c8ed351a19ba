/-
# Console.LiveTarget -- what is sent and what is reported in every run

What is sent over the binding of the capture browser as a runtime or an evaluate operation
goes to the document that was connected last: right after a listing that has it and before
anything reported it gone, or as the cleanup of a Stop.  And when the backend itself says
that document-start is idle, or has the binding ready for another connection, no browser of
this console holds an armed set or may still take one up.

Poles: the cleanup needs no listing, so a Stop sends it to a document that a listing has just
reported gone; the statuses `unavailable` and `error` are published besides `unconfirmed`.
-/
import Reb.Console.ConsoleRuns

namespace Reb.Console

set_option autoImplicit false

open Reb.Theory Reb.Theory.LittleEndian

def LiveBridge.idle : LiveBridge → Option Session
  | .ready session => some session
  | _ => none

/-- Every session of a state, with those that have ended. -/
def Inner.sessions (inner : Inner) : List Session :=
  inner.session.toList ++ inner.live.idle.toList ++ inner.handshaking.toList ++ inner.ended

/-- Every live session, at any time, has sent only what it was allowed to. -/
def OnlyChosen (inner : Inner) : Prop :=
  ∀ session ∈ inner.sessions, session.live = true → Sound session.peer.log

theorem LiveBridge.idle_eq {live : LiveBridge} {session : Session}
    (idle : live.idle = some session) : live = .ready session := by
  cases live with
  | ready => exact congrArg LiveBridge.ready (Option.some.inj idle)
  | absent | connecting | connected | lost => cases idle

theorem live_commands_only_chosen (options : Options) (bridge : Option String) (moves : List Move) :
    OnlyChosen (Inner.run options bridge moves) := by
  intro session member live
  have kept := Inner.Kept.run options bridge moves
  simp only [Inner.sessions, List.mem_append, Option.mem_toList, or_assoc] at member
  rcases member with opened | idle | shaking | ended
  · exact (kept.opened session opened).sound live
  · exact (kept.ready session (LiveBridge.idle_eq idle)).sound live
  · exact (kept.handshaking session shaking).1.sound live
  · exact (kept.ended session ended).sound

/-! ## A run with replies spelled out -/

instance (target : Nat) (event : Event) : Decidable (event.ReportsGone target) :=
  match event with
  | .exchanged _ operation named _ (some value) =>
      decidable_of_iff (value.listed.any (fun ids => decide (target ∉ ids)) = true ∨
          ((operation = 2 ∨ operation = 3) ∧ value.status = some "stale_target" ∧ named = target)) (by
        simp [Event.ReportsGone, Option.any_eq_true])
  | .exchanged _ _ _ _ none | .connected _ => .isFalse fun gone => gone

def headerOf (status kind request count bytes : Nat) : List UInt8 :=
  toBytes MAGIC 4 ++ toBytes 2 2 ++ toBytes status 2 ++ toBytes request 8 ++ toBytes kind 2 ++
    toBytes 0 2 ++ toBytes count 4 ++ toBytes bytes 4 ++ toBytes 0 4

/-- The listing of these documents, as the answer to a request. -/
def listingOf (ids : List Nat) (request : Nat) : Answer :=
  .bytes (headerOf 0 10 request ids.length (TARGET_SIZE * ids.length))
    (ids.flatMap fun id => toBytes id 8 ++ List.replicate (TARGET_SIZE - 8) 0)

/-- An empty text of status `ok`, or a runtime result. -/
def textOf (request : Nat) : Answer := .bytes (headerOf 0 4 request 0 0) []

def runtimeOf (request : Nat) : Answer := .bytes (headerOf 0 11 request 0 0) []

def crates : Crates where
  toString := fun _ => ""
  fromSlice := fun _ => some (.object [("status", .string "ok")])
  parseUrl := fun _ => none
  validateDocumentStart := .ok

def options : Options := ⟨crates, true, false⟩

def listing (ids : List Nat) : Outside := { wire := { answers := listingOf ids }, random := some 7 }

def connect22 : Json :=
  .object [("action", .string "connect_live"), ("target_id", .string "22"),
    ("binding_id", .string "42"), ("confirm_live", .bool true)]

def evaluate22 : Json :=
  .object [("action", .string "evaluate"), ("session_id", .string "7"), ("target_id", .string "22"),
    ("source", .string "1")]

def stop7 : Json := .object [("action", .string "stop"), ("session_id", .string "7")]

/-- The document is gone when the Stop cleans it up. -/
def goneBeforeStop : Inner :=
  .run options (some "42") [.handshake (listing [22]), .action connect22 (listing [22]),
    .action evaluate22
      { wire := { answers := fun request => if request = 3 then listingOf [22] 3 else textOf request } },
    .state (listing []), .action stop7 { wire := { answers := runtimeOf } }]

/-- The record ends with a cleanup of the target, right after it was reported gone. -/
def endsGone (target : Nat) (log : List Event) : Bool :=
  match log.reverse with
  | .exchanged .release 3 named _ _ :: event :: _ => named == target && decide (event.ReportsGone target)
  | _ => false

theorem endsGone_spec {target : Nat} {log : List Event} (ends : endsGone target log = true) :
    ∃ before event source answer,
      log = before ++ [event, .exchanged .release 3 target source answer] ∧
        event.ReportsGone target := by
  rw [endsGone] at ends
  split at ends
  next named source answer event before reversed =>
    rw [Bool.and_eq_true, beq_iff_eq, decide_eq_true_eq] at ends
    refine ⟨before.reverse, event, source, answer, ?_, ends.2⟩
    rw [← ends.1, ← List.reverse_reverse log, reversed]
    simp
  · cases ends

/-- A Stop sends a runtime operation to a document right after a listing that does not have
it, although the document was connected last. -/
theorem cleanup_after_gone :
    ∃ session ∈ goneBeforeStop.sessions, session.live = true ∧
      ∃ before event source answer,
        session.peer.log = before ++ [event, .exchanged .release 3 22 source answer] ∧
          event.ReportsGone 22 := by
  have found : goneBeforeStop.sessions.any (fun session => session.live && endsGone 22 session.peer.log) =
      true := by decide +kernel
  obtain ⟨session, member, ends⟩ := List.any_eq_true.1 found
  rw [Bool.and_eq_true] at ends
  exact ⟨session, member, ends.1, endsGone_spec ends.2⟩

end Reb.Console

namespace Reb.Console

/-! # Document-start -/

open Reb.Theory

/-- The browser holds an armed set, or may still take one up. -/
def Session.MayHold (session : Session) : Prop :=
  session.peer.armed = true ∨ session.peer.unanswered = true

variable {inner : Inner} {session : Session} {options : Options} {outside : Outside}

theorem Session.Honest.free (honest : session.Honest) (disarmed : session.documentStartArmed = false) :
    ¬ session.MayHold :=
  fun holds => absurd (disarmed.symm.trans (honest.armed holds)) Bool.false_ne_true

/-- With no session open and no end left unconfirmed, nothing is held. -/
theorem Inner.Kept.free (kept : inner.Kept) (closed : inner.session = none)
    (confirmed : inner.documentStartUnconfirmed = false) :
    ∀ session ∈ inner.sessions, ¬ session.MayHold := by
  intro session member
  simp only [Inner.sessions, List.mem_append, Option.mem_toList, or_assoc] at member
  rcases member with opened | idle | shaking | ended
  · rw [closed] at opened
    cases opened
  · have idle := kept.ready session (LiveBridge.idle_eq idle)
    exact idle.toHonest.free idle.disarmed
  · obtain ⟨idle, -⟩ := kept.handshaking session shaking
    exact idle.toHonest.free idle.disarmed
  · exact fun holds =>
      absurd (confirmed.symm.trans ((kept.ended session ended).noted holds)) Bool.false_ne_true

end Reb.Console
