/-
# Console.ConsoleRuns -- every operation keeps the sessions sound

A session passes from the handshake to the idle binding, to a connection, and back or to
its end; each place has its own condition (`Inner.Kept`).
-/
import Reb.Console.ConsoleKept

namespace Reb.Console

set_option autoImplicit false

variable {crates : Crates} {wire : Wire} {session : Session} {purpose : Purpose}
  {operation target : Nat} {source : String} {options : Options} {inner : Inner} {outside : Outside}

/-- A session with the capture browser that has ended. -/
structure Session.Past (unconfirmed : Bool) (session : Session) : Prop where
  live : session.live = true
  sound : Sound session.peer.log
  noted : session.peer.armed = true ∨ session.peer.unanswered = true → unconfirmed = true

structure Inner.Kept (inner : Inner) : Prop where
  opened : ∀ session, inner.session = some session → session.Kept
  ready : ∀ session, inner.live = .ready session → session.Idle
  handshaking : ∀ session, inner.handshaking = some session →
    session.Idle ∧ session.poisoned = false
  ended : ∀ session ∈ inner.ended, session.Past inner.documentStartUnconfirmed

/-! ## Ends -/

theorem Session.Past.mono {unconfirmed more : Bool} (past : session.Past unconfirmed) :
    session.Past (unconfirmed || more) :=
  { past with noted := fun holds => Bool.or_eq_true_iff.2 (.inl (past.noted holds)) }

theorem Inner.Kept.retire (kept : inner.Kept) (honest : session.Honest) :
    (inner.retire session).Kept :=
  { kept with
    ended := by
      refine List.forall_mem_append.2 ⟨fun past member => (kept.ended past member).mono, ?_⟩
      intro past member
      split at member
      case isTrue live =>
        obtain rfl := List.mem_singleton.1 member
        refine ⟨live, honest.sound live, fun holds => Bool.or_eq_true_iff.2 (.inr ?_)⟩
        exact Bool.and_eq_true_iff.2 ⟨live, honest.armed holds⟩
      case isFalse => exact absurd member List.not_mem_nil }

theorem Inner.Kept.without (kept : inner.Kept) : Kept { inner with session := none } :=
  { kept with opened := by rintro _ ⟨⟩ }

theorem Inner.Kept.opens (kept : inner.Kept) (opened : session.Kept) :
    Kept { inner with session := some session } :=
  { kept with opened := by rintro _ ⟨⟩; exact opened }

theorem Inner.Kept.readies (kept : inner.Kept) (idle : session.Idle) :
    Kept { inner with live := .ready session } :=
  { kept with ready := by rintro _ ⟨⟩; exact idle }

/-- The binding is lost, and with it the idle session and the one that was lent. -/
theorem Inner.loses {lent : Option Session} {why : String}
    (replaced : Kept { inner with live := .lost why })
    (ready : ∀ session, inner.live = .ready session → session.Honest)
    (honest : ∀ session, lent = some session → session.Honest) : (inner.lose lent why).Kept := by
  have retired : (inner.lose none why).Kept := by
    unfold Inner.lose
    dsimp only
    split
    next session live => exact replaced.retire (ready session live)
    · exact replaced
  cases lent with
  | some session => exact retired.retire (honest session rfl)
  | none => exact retired

theorem Inner.Kept.losing (kept : inner.Kept) (why : String) : Kept { inner with live := .lost why } :=
  { kept with ready := by rintro _ ⟨⟩ }

theorem Inner.Kept.lose (kept : inner.Kept) (honest : session.Honest) (why : String) :
    (inner.lose (some session) why).Kept :=
  loses (kept.losing why) (fun session live => (kept.ready session live).toHonest)
    (by rintro _ ⟨⟩; exact honest)

theorem Inner.Kept.lose_idle (kept : inner.Kept) (why : String) : (inner.lose none why).Kept :=
  loses (kept.losing why) (fun session live => (kept.ready session live).toHonest)
    (by rintro _ ⟨⟩)

/-- The idle binding failed in an exchange. -/
theorem Inner.Kept.lose_ready (kept : inner.Kept) (honest : session.Honest) (why : String) :
    (({ inner with live := .ready session } : Inner).lose none why).Kept :=
  loses (kept.losing why) (by rintro _ ⟨⟩; exact honest) (by rintro _ ⟨⟩)

theorem Inner.Kept.end_ (kept : inner.Kept) (honest : session.Honest) (why : String) :
    (inner.end_ session why).Kept := by
  rw [Inner.end_]
  split
  · exact kept.lose honest why
  · exact kept.retire honest

/-- An end leaves what is open. -/
theorem Inner.lose_session (inner : Inner) (lent : Option Session) (why : String) :
    (inner.lose lent why).session = inner.session := by
  unfold Inner.lose
  cases inner.live <;> cases lent <;> rfl

theorem Inner.end_session (inner : Inner) (session : Session) (why : String) :
    (inner.end_ session why).session = inner.session := by
  rw [Inner.end_]
  split
  · exact inner.lose_session _ why
  · rfl

/-! ## Reads -/

theorem Relisted.idle {session' : Session} (relisted : Relisted session session')
    (idle : session.Idle) : session'.Idle where
  toKept := relisted.kept
  live := relisted.live.trans idle.live
  unselected := by
    cases selected : session'.liveTarget with
    | none => rfl
    | some target =>
        have before := relisted.selected target selected
        rw [idle.unselected] at before
        cases before
  unaccessed := relisted.accessed.trans idle.unaccessed
  disarmed := relisted.noted.trans idle.disarmed

theorem Inner.Kept.readyState (kept : inner.Kept) : (inner.readyState options outside).2.Kept := by
  rw [Inner.readyState]
  dsimp only
  split
  next session live =>
    have idle := kept.ready session live
    split
    · exact kept.lose_idle _
    next usable =>
    have lists := listLive_spec options.crates outside.wire idle.toKept (ended_usable usable)
    generalize session.listLive options.crates outside.wire = result at lists ⊢
    obtain ⟨outcome, after⟩ := result
    cases lists with
    | failed error refused honest =>
        obtain rfl : outcome = .error error := refused
        exact kept.lose_ready honest _
    | listed listing accepted relisted =>
        obtain rfl : outcome = .ok listing := accepted
        exact kept.readies (relisted.idle idle)
  · exact kept

theorem Inner.Kept.settled (kept : inner.Kept) : (inner.settled outside).Kept := by
  rw [Inner.settled]
  split
  · exact kept
  next session opened =>
  split
  · exact kept
  · exact kept.without.end_ (kept.opened session opened).toHonest _

/-- What is left open can still be used. -/
theorem Inner.settled_usable (opened : (inner.settled outside).session = some session) :
    session.poisoned = false := by
  rw [Inner.settled] at opened
  split at opened
  next none => exact absurd (none.symm.trans opened) (by rintro ⟨⟩)
  next found there =>
  split at opened
  next usable =>
    obtain rfl := Option.some.inj (there.symm.trans opened)
    exact ended_usable usable
  next why ends =>
    rw [Inner.end_session] at opened
    cases opened

theorem Inner.Kept.state (kept : inner.Kept) : (inner.state options outside).2.Kept := by
  have settled : (inner.settled outside).Kept := kept.settled
  have usable : ∀ session, (inner.settled outside).session = some session →
      session.poisoned = false := fun _ => Inner.settled_usable
  rw [Inner.state]
  generalize inner.settled outside = found at settled usable ⊢
  split
  · split
    · exact settled
    · exact settled.readyState
  next session opened =>
  split
  · exact settled
  have lists := listLive_spec options.crates outside.wire (settled.opened session opened)
    (usable session opened)
  generalize session.listLive options.crates outside.wire = result at lists ⊢
  obtain ⟨outcome, after⟩ := result
  cases lists with
  | failed error refused honest =>
      obtain rfl : outcome = .error error := refused
      exact (settled.without.end_ honest _).readyState
  | listed listing accepted relisted =>
      obtain rfl : outcome = .ok listing := accepted
      exact settled.opens relisted.kept

/-- An exchange that neither lists nor commands. -/
theorem Session.Kept.exchange (kept : session.Kept) (usable : session.poisoned = false)
    (other : operation ≠ 1 ∧ operation ≠ 2 ∧ operation ≠ 3)
    (arms : purpose = .arm → session.documentStartArmed = true) :
    (session.exchange crates wire operation target source purpose).2.Kept := by
  have allowed : ∀ log, Allowed log purpose operation target source := fun _ =>
    allowed_other (by omega)
  cases exchange_spec crates wire session operation target source purpose with
  | exhausted error refused after =>
      rw [after]
      exact { kept with unanswered := fun _ => rfl }
  | unanswered error refused after =>
      rw [after]
      exact { kept.toHonest.unanswered_ (fun _ => allowed _) arms with
        selected := fun live selected chosen =>
          (kept.selected live selected chosen).append rfl fun gone => gone
        accessed := fun live used member => (kept.accessed live used member).append rfl }
  | answered value accepted listing after =>
      rw [after]
      refine kept.answered usable (fun _ => allowed _) arms fun selected chosen => ?_
      rintro (⟨ids, listed, -⟩ | ⟨commands, -⟩)
      · exact other.1 (listing.1 (Option.isSome_of_mem listed))
      · omega

theorem Inner.Kept.documentStart (kept : inner.Kept) (after : Nat) :
    (inner.documentStart options outside after).2.Kept := by
  rw [Inner.documentStart]
  split
  · split <;> exact kept
  next session opened =>
  dsimp only
  generalize (if session.ownsBrowser then outside.health.browserExited
    else outside.health.bridgeExited) = ended
  split
  · exact kept
  next usable =>
  split
  · exact kept
  simp only [Bool.or_eq_true, not_or, Bool.not_eq_true] at usable
  generalize options.crates.toString _ = command
  have exchanged : (session.exchange options.crates outside.wire 4 0 command).2.Kept :=
    (kept.opened session opened).exchange usable.1.1 (by decide) (by rintro ⟨⟩)
  generalize session.exchange options.crates outside.wire 4 0 command = result at exchanged ⊢
  obtain ⟨outcome, after⟩ := result
  cases outcome with
  | error error => exact kept.opens exchanged
  | ok value => exact kept.opens exchanged

/-! ## Start and connect -/

/-- Nothing is asked of the record of a disposable browser. -/
theorem Session.Honest.disposable (honest : session.Honest) (other : session.live = false) :
    session.Kept :=
  { honest with
    selected := fun live => absurd (other.symm.trans live) Bool.false_ne_true
    accessed := fun live => absurd (other.symm.trans live) Bool.false_ne_true }

theorem Session.Honest.unused {session : Session} (unused : session.peer = {}) : session.Honest where
  sound := fun _ => unused ▸ sound_nil
  armed := by
    rw [unused]
    rintro (⟨⟨⟩⟩ | ⟨⟨⟩⟩)
  unanswered := by
    rw [unused]
    rintro ⟨⟩

theorem Inner.Kept.start (kept : inner.Kept) (request : Theory.Json) :
    (inner.start options outside request).2.Kept := by
  rw [Inner.start]
  split
  · exact kept
  split
  · exact kept
  next id spawned =>
  have fresh : ({ id, bindingId := id, ownsBrowser := true, live := false } : Session).Honest :=
    .unused rfl
  have honest := @exchange_honest 0 options.crates outside.wire _ .command 1 "" fresh rfl
    (fun _ => allowed_other (by decide)) (by rintro ⟨⟩)
  have exchanged := exchange_spec options.crates outside.wire
    { id, bindingId := id, ownsBrowser := true, live := false } 1 0 "" .command
  dsimp only
  generalize Session.exchange options.crates outside.wire _ 1 0 "" = result at honest exchanged ⊢
  obtain ⟨outcome, after⟩ := result
  cases exchanged with
  | exhausted error refused same | unanswered error refused same =>
      obtain rfl : outcome = .error error := refused
      exact kept.retire honest
  | answered value accepted listing same =>
      obtain rfl : outcome = .ok value := accepted
      obtain rfl := same
      exact kept.opens (honest.disposable rfl)

theorem Session.Idle.connect (idle : session.Idle) (id : String) (target : Nat) :
    (session.connect id target).Kept where
  sound := fun live => (idle.sound live).append (by rintro _ _ _ _ _ ⟨⟩)
  armed := idle.armed
  unanswered := idle.unanswered
  selected := by
    rintro live selected ⟨⟩
    exact chosen_connected _ _
  accessed := by
    intro live used member
    rw [show (session.connect id target).accessedTargets = [] from idle.unaccessed] at member
    cases member

theorem Inner.Kept.bindLive (kept : inner.Kept) (selected binding : Nat) :
    (inner.bindLive options outside selected binding).2.Kept := by
  rw [Inner.bindLive]
  split
  · exact kept
  · exact kept
  · exact kept
  · exact kept
  next session live =>
  split
  · exact kept
  split
  · exact kept.lose_idle _
  next usable =>
  have idle := kept.ready session live
  have lists := listLive_spec options.crates outside.wire idle.toKept (ended_usable usable)
  generalize session.listLive options.crates outside.wire = result at lists ⊢
  obtain ⟨outcome, after⟩ := result
  cases lists with
  | failed error refused honest =>
      obtain rfl : outcome = .error error := refused
      exact kept.lose_ready honest _
  | listed listing accepted relisted =>
      obtain rfl : outcome = .ok listing := accepted
      have idle' := relisted.idle idle
      dsimp only
      split
      · exact kept.readies idle'
      split
      · exact kept.readies idle'
      split
      · exact kept.readies idle'
      · have connected : Kept { inner with live := .connected } :=
          { kept with ready := by rintro _ ⟨⟩ }
        exact connected.opens (idle'.connect _ _)

theorem Inner.Kept.connectLive (kept : inner.Kept) (request : Theory.Json) :
    (inner.connectLive options outside request).2.Kept := by
  rw [Inner.connectLive]
  split
  · exact kept
  · exact kept.bindLive _ _

/-! ## Stop -/

theorem Inner.Kept.handBack (kept : inner.Kept) (honest : session.Honest)
    (live : session.live = true) (unaccessed : session.accessedTargets = [])
    (disarmed : session.documentStartArmed = false) : (inner.handBack session).2.Kept := by
  have idle : ({ session with liveTarget := none, staleTarget := none } : Session).Idle :=
    { honest with
      selected := by rintro _ _ ⟨⟩
      accessed := by
        intro _ used member
        rw [show ({ session with liveTarget := none, staleTarget := none } : Session).accessedTargets = []
          from unaccessed] at member
        cases member
      live := live
      unselected := rfl
      unaccessed := unaccessed
      disarmed := disarmed }
  rw [Inner.handBack]
  split
  · exact kept.readies idle
  · exact kept.retire idle.toHonest

theorem Inner.Kept.stopSession (kept : inner.Kept) (opened : session.Kept) :
    (inner.stopSession options outside session).2.Kept := by
  rw [Inner.stopSession]
  split
  case isTrue usable =>
    rw [Bool.and_eq_true, Option.isNone_iff_eq_none] at usable
    obtain ⟨live, usable⟩ := usable
    have released := releaseLoop_spec options.crates outside.wire session.accessedTargets opened.toHonest
      (ended_usable usable) (opened.accessed live)
    rw [Session.releaseLiveValues]
    generalize Session.releaseLoop options.crates outside.wire session.accessedTargets session = result
      at released ⊢
    obtain ⟨outcome, after⟩ := result
    obtain ⟨honest, same, cleaned⟩ := released
    cases outcome with
    | error error => exact kept.end_ honest _
    | ok done =>
        obtain ⟨clean, unaccessed, noted⟩ := cleaned rfl
        dsimp only at clean unaccessed honest same ⊢
        split
        case isFalse disarmed =>
          exact kept.handBack honest (same.trans live) unaccessed (Bool.not_eq_true _ ▸ disarmed)
        case isTrue =>
          have cleared := clearDocumentStart_spec options.crates outside.wire honest clean
          generalize after.clearDocumentStart options.crates outside.wire = result at cleared ⊢
          obtain ⟨outcome, last⟩ := result
          obtain ⟨honest', same', confirmed⟩ := cleared
          cases outcome with
          | error error => exact kept.end_ honest' _
          | ok done =>
              obtain ⟨still, disarmed⟩ := confirmed rfl
              exact kept.handBack honest' (same'.trans (same.trans live)) (still.trans unaccessed) disarmed
  case isFalse =>
    split
    · split <;> exact kept.end_ opened.toHonest _
    · exact kept.retire opened.toHonest

theorem Inner.Kept.stop (kept : inner.Kept) (request : Theory.Json) :
    (inner.stop options outside request).2.Kept := by
  rw [Inner.stop]
  split
  · exact kept
  split
  · exact kept
  next session opened =>
  split
  · exact kept
  · exact kept.without.stopSession (kept.opened session opened)

/-! ## Commands -/

/-- What a command is prepared to. -/
inductive Prepares (session : Session) (action : String) (result : Prepared × Session) : Prop where
  | reply (answer : Except Error Shown) (same : result.1 = .reply answer)
      (after : result.2 = session ∨ result.2 = { session with documentStartArmed := true })
  | send (operation target : Nat) (source : String) (purpose : Purpose)
      (same : result.1 = .send operation target source purpose)
      (after : result.2 = session ∨ result.2 = { session with documentStartArmed := true })
      (known : 1 ≤ operation ∧ operation ≤ 4) (lists : operation = 1 → action = "targets")
      (release : purpose ≠ .release)
      (arms : purpose = .arm → operation = 4 ∧ result.2.documentStartArmed = true)

theorem runtimeChecked_spec {request : Theory.Json} {prepared : Prepared}
    (checked : Inner.runtimeChecked options request = .ok prepared) :
    ∃ target source, prepared = .send 3 target source .command := by
  simp only [Inner.runtimeChecked, bind, Except.bind, pure, Except.pure, throw, throwThe,
    MonadExceptOf.throw] at checked
  split at checked
  · cases checked
  split at checked
  · cases checked
  split at checked
  · cases checked
  · exact ⟨_, _, (Except.ok.inj checked).symm⟩

theorem evaluateChecked_spec {request : Theory.Json} {prepared : Prepared}
    (checked : Inner.evaluateChecked request = .ok prepared) :
    ∃ target source, prepared = .send 2 target source .command := by
  simp only [Inner.evaluateChecked, bind, Except.bind, pure, Except.pure, throw, throwThe,
    MonadExceptOf.throw] at checked
  split at checked
  · cases checked
  split at checked
  · cases checked
  split at checked
  · cases checked
  · exact ⟨_, _, (Except.ok.inj checked).symm⟩

theorem prepare_spec (options : Options) (request : Theory.Json) (session : Session) (action : String) :
    Prepares session action (Inner.prepare options request session action) := by
  unfold Inner.prepare
  dsimp only
  split
  · exact .send 1 0 "" .command rfl (.inl rfl) (by decide) (fun _ => rfl) (by decide) (by rintro ⟨⟩)
  · split
    · exact .reply _ rfl (.inl rfl)
    · exact .send 4 0 clearCommand .command rfl (.inl rfl) (by decide) (by decide) (by decide)
        (by rintro ⟨⟩)
  · split
    · exact .reply _ rfl (.inl rfl)
    split
    · exact .reply _ rfl (.inl rfl)
    split
    · exact .reply _ rfl (.inr rfl)
    · exact .send 4 0 _ .arm rfl (.inr rfl) (by decide) (by decide) (by decide) fun _ => ⟨rfl, rfl⟩
  · split
    next prepared checked =>
      obtain ⟨target, source, rfl⟩ := runtimeChecked_spec checked
      exact .send 3 target source .command rfl (.inl rfl) (by decide) (by decide) (by decide)
        (by rintro ⟨⟩)
    · exact .reply _ rfl (.inl rfl)
  · split
    next prepared checked =>
      obtain ⟨target, source, rfl⟩ := evaluateChecked_spec checked
      exact .send 2 target source .command rfl (.inl rfl) (by decide) (by rintro ⟨⟩) (by decide)
        (by rintro ⟨⟩)
    · exact .reply _ rfl (.inl rfl)

theorem staled_spec (session : Session) (target : Nat) (value : Value) :
    (value.status = some "stale_target" ∧ (session.staled target value).2 =
        { session with liveTarget := none, staleTarget := some target }) ∨
      (value.status ≠ some "stale_target" ∧ (session.staled target value).2 = session) := by
  obtain ⟨sessionId, body, reason, requestId⟩ := value
  cases body with
  | text status type text truncated =>
      by_cases stale : status = "stale_target"
      · subst stale
        exact .inl ⟨rfl, rfl⟩
      · refine .inr ⟨fun same => stale (Option.some.inj same), ?_⟩
        rw [Session.staled]
        split
        next same => exact absurd (Body.text.inj same).1 stale
        · rfl
  | listing | runtime | documentStart => exact .inr ⟨by rintro ⟨⟩, rfl⟩

/-- The exchange of a command. -/
theorem Inner.Kept.sendCommand (kept : inner.Kept) (honest : session.Honest)
    (usable : session.poisoned = false)
    (allowed : session.live = true → Allowed session.peer.log purpose operation target source)
    (arms : purpose = .arm → session.documentStartArmed = true)
    (selected : session.live = true → operation ≠ 1 ∧ ∀ chosen, session.liveTarget = some chosen →
      Chosen session.peer.log chosen ∧ (operation = 2 ∨ operation = 3 → chosen = target))
    (accessed : session.live = true → ∀ used ∈ session.accessedTargets, Used session.peer.log used ∨
      (used = target ∧ Chosen session.peer.log target ∧ purpose = .command ∧
        (operation = 2 ∨ operation = 3))) :
    (inner.sendCommand options outside session operation target source purpose).2.Kept := by
  have honest' := @exchange_honest target options.crates outside.wire session purpose operation source
    honest usable allowed arms
  have exchanged := exchange_spec options.crates outside.wire session operation target source purpose
  rw [Inner.sendCommand]
  generalize session.exchange options.crates outside.wire operation target source purpose = result
    at honest' exchanged ⊢
  obtain ⟨outcome, after⟩ := result
  cases exchanged with
  | exhausted error refused same | unanswered error refused same =>
      obtain rfl : outcome = .error error := refused
      exact kept.end_ honest' _
  | answered value accepted listing same =>
      obtain rfl : outcome = .ok value := accepted
      obtain rfl := same
      have used : session.live = true → ∀ used ∈ session.accessedTargets,
          Used (session.peer.log ++
            [.exchanged purpose operation target source (some value)]) used := by
        intro live used member
        rcases accessed live used member with before | ⟨rfl, chosen, rfl, commands⟩
        · exact before.append rfl
        · exact chosen.used rfl ⟨commands, rfl⟩
      dsimp only
      split
      case isFalse other => exact kept.opens (honest'.disposable (Bool.not_eq_true _ ▸ other))
      case isTrue live =>
        obtain ⟨command, chosen⟩ := selected live
        rcases staled_spec (session.answered outside.wire purpose operation target source value) target
          value with ⟨-, same⟩ | ⟨fresh, same⟩
        · rw [same]
          exact kept.opens { honest' with
            selected := by rintro _ _ ⟨⟩
            accessed := used }
        · rw [same]
          refine kept.opens { honest' with
            selected := fun live selected still => ?_
            accessed := used }
          refine (chosen selected still).1.append rfl ?_
          rintro (⟨ids, listed, -⟩ | ⟨-, stale, -⟩)
          · exact command (listing.1 (Option.isSome_of_mem listed))
          · exact fresh stale

theorem Inner.Kept.dispatch (kept : inner.Kept) (opened : session.Kept)
    (usable : session.poisoned = false) (known : 1 ≤ operation ∧ operation ≤ 4)
    (lists : session.live = true → operation ≠ 1) (release : purpose ≠ .release)
    (arms : purpose = .arm → operation = 4 ∧ session.documentStartArmed = true) :
    (inner.dispatch options outside session operation target source purpose).2.Kept := by
  rw [Inner.dispatch]
  split
  case isFalse other =>
    have apart : session.live = true → operation = 4 := by
      intro live
      simp only [live, Bool.true_and, Bool.and_eq_true, bne_iff_ne, not_and, not_not] at other
      exact other (lists live)
    refine kept.sendCommand opened.toHonest usable ?_ (fun arm => (arms arm).2) ?_ ?_
    · exact fun live => allowed_other (by rw [apart live]; decide)
    · refine fun live => ⟨lists live, fun chosen still => ⟨opened.selected live chosen still, ?_⟩⟩
      rw [apart live]
      exact fun commands => absurd commands (by decide)
    · exact fun live used member => .inl (opened.accessed live used member)
  case isTrue commands =>
    simp only [Bool.and_eq_true, bne_iff_ne] at commands
    obtain ⟨⟨live, -⟩, apart⟩ := commands
    have command : purpose = .command := by
      cases purpose with
      | command => rfl
      | release => exact absurd rfl release
      | arm => exact absurd (arms rfl).1 apart
    split
    · exact kept.opens opened
    next chosen =>
    split
    · exact kept.opens { opened with selected := by rintro _ _ ⟨⟩ }
    have chosen : session.liveTarget = some target := by simpa using chosen
    have listed := listLive_spec options.crates outside.wire opened usable
    generalize session.listLive options.crates outside.wire = result at listed ⊢
    obtain ⟨outcome, after⟩ := result
    cases listed with
    | failed error refused honest =>
        obtain rfl : outcome = .error error := refused
        exact kept.end_ honest _
    | listed listing accepted relisted =>
        obtain rfl : outcome = .ok listing := accepted
        dsimp only
        split
        · exact kept.opens relisted.kept
        next present =>
        have live' : after.live = true := relisted.live.trans live
        have present : target ∈ after.nativeTargets := by simpa using present
        have selected : after.liveTarget = some target := relisted.still target present chosen
        have either : operation = 2 ∨ operation = 3 := by
          have unlisted := lists live
          omega
        have now : Chosen after.peer.log target := relisted.kept.selected live' target selected
        refine kept.sendCommand ?_ relisted.usable ?_ ?_ ?_ ?_
        · exact ⟨relisted.kept.sound, relisted.kept.armed, relisted.kept.unanswered⟩
        · exact fun _ _ => .inl ⟨release, now, relisted.listed target present⟩
        · exact fun arm => absurd (arms arm).1 apart
        · refine fun _ => ⟨lists live, fun selected' still => ⟨relisted.kept.selected live' selected' still, ?_⟩⟩
          exact fun _ => Option.some.inj (still.symm.trans selected)
        · intro _ used member
          have from_ : used = target ∨ used ∈ after.accessedTargets := by
            split at member
            · exact .inr member
            · exact (List.mem_orderedInsert _).1 member
          rcases from_ with rfl | before
          · exact .inr ⟨rfl, now, command, either⟩
          · exact .inl (relisted.kept.accessed live' used before)

theorem Session.Kept.noted (kept : session.Kept) :
    ({ session with documentStartArmed := true } : Session).Kept :=
  { kept with armed := fun _ => rfl }

theorem Inner.Kept.command (kept : inner.Kept) (request : Theory.Json) (action : String) :
    (inner.command options outside request action).2.Kept := by
  rw [Inner.command]
  split
  · exact kept
  split
  · exact kept
  split
  · exact kept
  next session opened =>
  have held := kept.opened session opened
  split
  · exact kept
  dsimp only
  split
  · exact kept.without.end_ held.toHonest _
  next usable =>
  have usable := ended_usable usable
  split
  case isTrue =>
    have lists := listLive_spec options.crates outside.wire held usable
    generalize session.listLive options.crates outside.wire = result at lists ⊢
    obtain ⟨outcome, after⟩ := result
    cases lists with
    | failed error refused honest =>
        obtain rfl : outcome = .error error := refused
        exact kept.without.end_ honest _
    | listed listing accepted relisted =>
        obtain rfl : outcome = .ok listing := accepted
        exact kept.opens relisted.kept
  case isFalse other =>
    have prepares := prepare_spec options request session action
    generalize Inner.prepare options request session action = result at prepares ⊢
    obtain ⟨prepared, after⟩ := result
    have prepared_ : ∀ {after : Session}, after = session ∨
        after = { session with documentStartArmed := true } →
          after.Kept ∧ after.poisoned = false ∧ after.live = session.live := by
      rintro after (rfl | rfl)
      · exact ⟨held, usable, rfl⟩
      · exact ⟨held.noted, usable, rfl⟩
    cases prepares with
    | reply answer same after' =>
        obtain rfl : prepared = .reply answer := same
        exact kept.opens (prepared_ after').1
    | send operation target source purpose same after' known lists release arms =>
        obtain rfl : prepared = .send operation target source purpose := same
        obtain ⟨held', usable', live⟩ := prepared_ after'
        refine kept.without.dispatch held' usable' known (fun lives first => other ?_) release arms
        rw [Bool.and_eq_true, beq_iff_eq]
        exact ⟨lists first, live.symm.trans lives⟩

theorem Inner.Kept.action (kept : inner.Kept) (request : Theory.Json) :
    (inner.action options outside request).2.Kept := by
  rw [Inner.action]
  dsimp only
  split
  · exact kept.start request
  split
  · exact kept.connectLive request
  split
  · exact kept
  split
  · exact kept.stop request
  · exact kept.command request _

/-! ## Runs -/

theorem Inner.kept_armLiveBridge (bridge : Option String) : (Inner.armLiveBridge bridge).Kept := by
  cases bridge with
  | none =>
      exact ⟨by rintro _ ⟨⟩, by rintro _ ⟨⟩, by rintro _ ⟨⟩, fun _ member => absurd member List.not_mem_nil⟩
  | some id =>
      refine ⟨by rintro _ ⟨⟩, by rintro _ ⟨⟩, ?_, fun _ member => absurd member List.not_mem_nil⟩
      rintro _ ⟨⟩
      refine ⟨{ Session.Honest.unused rfl with
        selected := by rintro _ _ ⟨⟩
        accessed := fun _ _ member => absurd member List.not_mem_nil
        live := rfl
        unselected := rfl
        unaccessed := rfl
        disarmed := rfl }, rfl⟩

theorem Inner.Kept.handshake (kept : inner.Kept) : (inner.handshake options outside).Kept := by
  rw [Inner.handshake]
  split
  · exact kept
  next session shaking =>
  obtain ⟨idle, usable⟩ := kept.handshaking session shaking
  have done : Kept { inner with handshaking := none } := { kept with handshaking := by rintro _ ⟨⟩ }
  have lists := listLive_spec options.crates outside.wire idle.toKept usable
  generalize session.listLive options.crates outside.wire = result at lists ⊢
  obtain ⟨outcome, after⟩ := result
  have past : after.Honest → after.live = true → after.documentStartArmed = false →
      after.Past inner.documentStartUnconfirmed := fun honest live disarmed =>
    ⟨live, honest.sound live, fun holds =>
      absurd (disarmed.symm.trans (honest.armed holds)) Bool.false_ne_true⟩
  cases lists with
  | failed error refused honest live noted =>
      obtain rfl : outcome = .error error := refused
      dsimp only
      split
      · exact done.lose honest _
      · refine { done with
          ended := List.forall_mem_append.2 ⟨kept.ended, List.forall_mem_singleton.2 ?_⟩ }
        exact past honest (live.trans idle.live) (noted.trans idle.disarmed)
  | listed listing accepted relisted =>
      obtain rfl : outcome = .ok listing := accepted
      have idle' := relisted.idle idle
      dsimp only
      split
      · exact done.readies idle'
      · refine { done with
          ended := List.forall_mem_append.2 ⟨kept.ended, List.forall_mem_singleton.2 ?_⟩ }
        exact past idle'.toHonest idle'.live idle'.disarmed

/-- Between the operations only the browser moves. -/
theorem Session.Honest.settle (honest : session.Honest) (armed : Bool) :
    (session.settle armed).Honest where
  sound := honest.sound
  armed := by
    rintro (holds | late)
    · exact honest.armed (Bool.or_eq_true_iff.1 (Bool.and_eq_true_iff.1 holds).2)
    · exact honest.armed (.inr late)
  unanswered := honest.unanswered

theorem Session.Kept.settle (kept : session.Kept) (armed : Bool) : (session.settle armed).Kept :=
  { kept.toHonest.settle armed with selected := kept.selected, accessed := kept.accessed }

theorem Session.Idle.settle (idle : session.Idle) (armed : Bool) : (session.settle armed).Idle :=
  { idle.toKept.settle armed with
    live := idle.live
    unselected := idle.unselected
    unaccessed := idle.unaccessed
    disarmed := idle.disarmed }

theorem Inner.Kept.settle (kept : inner.Kept) (armed : Bool) : (inner.settle armed).Kept where
  opened := by
    intro session opened
    obtain ⟨before, there, rfl⟩ := Option.map_eq_some_iff.1 opened
    exact (kept.opened before there).settle armed
  ready := by
    intro session live
    have live : inner.live.settle armed = .ready session := live
    cases there : inner.live with
    | ready before =>
        rw [there] at live
        obtain rfl := LiveBridge.ready.inj live
        exact (kept.ready before there).settle armed
    | absent | connecting | connected | lost =>
        rw [there] at live
        cases live
  handshaking := by
    intro session shaking
    obtain ⟨before, there, rfl⟩ := Option.map_eq_some_iff.1 shaking
    obtain ⟨idle, usable⟩ := kept.handshaking before there
    exact ⟨idle.settle armed, usable⟩
  ended := by
    intro session member
    obtain ⟨before, there, rfl⟩ := List.mem_map.1 member
    obtain ⟨live, sound, noted⟩ := kept.ended before there
    refine ⟨live, sound, ?_⟩
    rintro (holds | late)
    · exact noted (Bool.or_eq_true_iff.1 (Bool.and_eq_true_iff.1 holds).2)
    · exact noted (.inr late)

theorem Inner.Kept.step (kept : inner.Kept) (move : Move) : (inner.step options move).Kept := by
  cases move with
  | state outside => exact kept.state
  | documentStart after outside => exact kept.documentStart after
  | action request outside => exact kept.action request
  | handshake outside => exact kept.handshake
  | settle armed => exact kept.settle armed

theorem Inner.Kept.run (options : Options) (bridge : Option String) (moves : List Move) :
    (Inner.run options bridge moves).Kept := by
  have steps : ∀ {inner : Inner}, inner.Kept → (moves.foldl (Inner.step options) inner).Kept := by
    induction moves with
    | nil => exact id
    | cons move rest ih => exact fun kept => ih (kept.step move)
  exact steps (Inner.kept_armLiveBridge bridge)

end Reb.Console
