/-
# Debugger.Turns -- replies, whole turns and runs of the actor

The last of the rounds is the one that ends an exchange (`complete_ends`).  With it
every turn keeps `Reached`, and so does every run from the first state on.
-/
import Reb.Debugger.Rounds

namespace Reb.Debugger.Owner

open Theory.Machine

set_option autoImplicit false

variable {o m o' : Owner} {hand : Option Nat} {renews : Bool}

/-! ## Replies -/

theorem answerPending_leads (idle : o.exchange = none) (fits : PublicView → Bool) :
    Leads o hand (o.answerPending fits) hand := by
  rw [answerPending]
  split
  · exact .refl
  · rename_i message waiting
    apply reply_waiter_leads none o.pause idle
    intro j
    simp [waiting]
    omega

theorem answerPause_leads (idle : o.exchange = none) (fits : PublicView → Bool) :
    Leads o hand (o.answerPause fits) hand := by
  rw [answerPause]
  split
  · exact .refl
  · rename_i message waiting
    apply reply_waiter_leads o.pending none idle
    intro j
    simp [waiting]

theorem answerPending_exchange (fits : PublicView → Bool) :
    (o.answerPending fits).exchange = o.exchange := by
  rw [answerPending]
  split <;> rfl

theorem answerPending_pending (fits : PublicView → Bool) : (o.answerPending fits).pending = none := by
  rw [answerPending]
  split
  · assumption
  · rfl

theorem answerPending_session (fits : PublicView → Bool) :
    (o.answerPending fits).session = o.session := by
  rw [answerPending]
  split <;> rfl

theorem answerPause_pending (fits : PublicView → Bool) :
    (o.answerPause fits).pending = o.pending := by
  rw [answerPause]
  split <;> rfl

theorem answerPause_pause (fits : PublicView → Bool) : (o.answerPause fits).pause = none := by
  rw [answerPause]
  split
  · assumption
  · rfl

theorem answerPause_session (fits : PublicView → Bool) :
    (o.answerPause fits).session = o.session := by
  rw [answerPause]
  split <;> rfl

/-- The stamps that precede the answers. -/
theorem stampWaiting_leads (waiting : Option Envelope) :
    Leads o hand (waiting.elim o fun message => o.stamp message.request .completed) hand := by
  cases waiting with
  | none => exact .refl
  | some message => exact stamp_leads message.request .completed

theorem stampWaiting_exchange (waiting : Option Envelope) :
    (waiting.elim o fun message => o.stamp message.request .completed).exchange = o.exchange := by
  cases waiting <;> rfl

/-- A stamp leaves the run in its state. -/
theorem stampWaiting_session (waiting : Option Envelope) {s : Runtime}
    (found : (waiting.elim o fun message => o.stamp message.request .completed).session = some s) :
    ∃ w, o.session = some w ∧ s.view.state = w.view.state := by
  cases waiting with
  | none => exact ⟨s, found, rfl⟩
  | some message =>
      obtain ⟨w, before, rfl⟩ := Option.map_eq_some_iff.1 found
      exact ⟨w, before, rfl⟩

theorem settleWaiters_ends {outside : Outside} (idle : o.exchange = none)
    (rest : ∀ s, o.session = some s →
      s.view.state.terminal = true ∨ s.view.state = .paused ∨ s.view.state = .running) :
    Ends renews o none (o.settleWaiters outside) := by
  rw [settleWaiters]
  have first : Leads o none (o.pending.elim o fun message =>
    o.stamp message.request .completed) none := stampWaiting_leads o.pending
  have idle' := (stampWaiting_exchange (o := o) o.pending).trans idle
  have rest' : ∀ s, (o.pending.elim o fun message =>
      o.stamp message.request .completed).session = some s →
      s.view.state.terminal = true ∨ s.view.state = .paused ∨ s.view.state = .running := by
    intro s found
    obtain ⟨w, before, state⟩ := stampWaiting_session o.pending found
    rw [state]
    exact rest w before
  generalize (o.pending.elim o fun message => o.stamp message.request .completed) = p at *
  have second : Leads p none (p.pause.elim p fun message =>
    p.stamp message.request .completed) none := stampWaiting_leads p.pause
  have idle'' := (stampWaiting_exchange (o := p) p.pause).trans idle'
  have rest'' : ∀ s, (p.pause.elim p fun message =>
      p.stamp message.request .completed).session = some s →
      s.view.state.terminal = true ∨ s.view.state = .paused ∨ s.view.state = .running := by
    intro s found
    obtain ⟨w, before, state⟩ := stampWaiting_session p.pause found
    rw [state]
    exact rest' w before
  generalize (p.pause.elim p fun message => p.stamp message.request .completed) = q at *
  apply Leads.ends
  · apply Leads.trans _ (answerPause_leads (o := q.publish.answerPending outside.fits)
      ((answerPending_exchange _).trans idle'') outside.fits)
    apply Leads.trans _ (answerPending_leads (o := q.publish) idle'' outside.fits)
    exact (first.trans second).trans publish_leads
  · refine .quiet ((answerPause_pending _).trans (answerPending_pending _)) (answerPause_pause _)
      fun s found => rest'' s ?_
    rwa [answerPause_session, answerPending_session] at found

theorem conclude_ends {outside : Outside} {s : Runtime} {advances ended : Bool}
    (found : o.session = some s) (idle : o.exchange = none)
    (rest : s.view.state.terminal = true ∨ s.view.state = .paused ∨ s.view.state = .running) :
    Ends renews o none (o.conclude outside s advances ended) := by
  rw [conclude]
  generalize next : (if advances = true then o.advanceControl s else .ok o) = advanced
  cases advanced with
  | error error => exact giveUp_ends rfl _ _ outside.reaped _
  | ok p =>
      obtain ⟨leads, idle', rest'⟩ : Leads o none p none ∧ p.exchange = none ∧ ∀ w,
          p.session = some w → w.view.state.terminal = true ∨ w.view.state = .paused
            ∨ w.view.state = .running := by
        split at next
        · obtain ⟨s', revises, state, rfl⟩ := advanceControl_ok next
          refine ⟨revise_leads found revises (.inl idle), idle, fun w same => ?_⟩
          cases same
          rwa [state]
        · cases next
          refine ⟨.refl, idle, fun w same => ?_⟩
          cases found.symm.trans same
          exact rest
      apply leads.then
      simp only []
      split
      · have disposed : Leads p none (p.dispose outside.reaped).1 none :=
          dispose_leads idle' outside.reaped
        have idle'' := (dispose_exchange outside.reaped).trans idle'
        rcases dispose_cases (o := p) outside.reaped with ⟨reaped, -, session⟩ | ⟨failed, session⟩
        · revert disposed idle'' reaped session
          rcases p.dispose outside.reaped with ⟨d, _ | failure⟩
          · intro disposed idle'' _ session
            apply disposed.then
            apply settleWaiters_ends idle''
            intro w same
            rw [show d.session = p.session.map (·.disposed true) from session,
              Option.map_eq_some_iff] at same
            obtain ⟨v, before, rfl⟩ := same
            exact rest' v before
          · intro _ _ impossible
            cases impossible
        · revert disposed idle'' failed session
          rcases p.dispose outside.reaped with ⟨d, _ | failure⟩
          · intro _ _ impossible
            cases impossible
          · intro disposed idle'' _ session
            refine ((disposed.trans (rejectWaiters_leads idle'' failure)).trans
              publish_leads).ends ?_
            refine .quiet (rejectWaiters_pending failure) (rejectWaiters_pause failure)
              fun w same => .inl ?_
            have same' : d.session = some w := (rejectWaiters_session failure).symm.trans same
            rw [show d.session = p.session.map (·.disposed false) from session,
              Option.map_eq_some_iff] at same'
            obtain ⟨v, -, rfl⟩ := same'
            exact v.disposed_false_terminal
      · exact settleWaiters_ends idle' rest'

/-- The exchange ends with a reply that refuses the instruction. -/
theorem refused_leads {reply : NativeReply} {r : WireRequest} (flying : o.exchange = some r)
    (refuses : reply.status ≠ 0) :
    Leads o hand ({ o with exchange := none }.emit (.validated reply)) hand := by
  intro sound
  refine ⟨⟨sound.lawful.snoc ?_, ?_, ?_, ?_, ?_, ?_, ?_, ?_⟩, .of_session rfl rfl rfl rfl⟩
  · obtain ⟨s, found, awaits⟩ := sound.flight r flying
    exact ⟨r, sound.wire.trans flying, awaits.executes (sound.run s found).1⟩
  · simpa [emit, Deed.live] using sound.helper
  · simp [emit, Deed.flight]
  · intro j member
    exact sound.parked j (by simpa [emit] using member)
  · intro j member
    exact sound.skipped j (by simpa [emit] using member)
  · intro j
    simpa [emit, Deed.answers] using sound.account j
  · intro s found
    simpa [emit, Deed.accept, refuses] using sound.run s found
  · rintro w ⟨⟩

theorem validated_ok {s : Runtime} {result : Except Error NativeReply} {reply : NativeReply}
    (ok : s.validated result = .ok reply) :
    result = .ok reply ∧ validateNative s.spec s.view.trace reply s.initializing = .ok () := by
  cases result with
  | error error => cases ok
  | ok given =>
      cases judged : validateNative s.spec s.view.trace given s.initializing with
      | error error =>
          simp only [Runtime.validated, bind, Except.bind, judged] at ok
          cases ok
      | ok believed =>
          simp only [Runtime.validated, bind, Except.bind, judged, pure, Except.pure] at ok
          cases ok
          exact ⟨rfl, judged⟩

theorem store_begun (s : Runtime) (revision : UInt64) (v : NativeView) :
    (s.store revision v).initializing = false := by
  rw [Runtime.initializing, Runtime.store, Trace.store]
  split
  · rfl
  · rename_i begun
    exact Bool.not_eq_true _ ▸ begun

/-- What the run holds once a believed reply is stored. -/
theorem store_sound {s : Runtime} {views : List NativeView} {reply : NativeReply} {revision : UInt64}
    (held : s.Sound views)
    (ok : validateNative s.spec s.view.trace reply s.initializing = .ok ())
    (status : reply.status = 0) (next : checkedAdd s.view.snapshotRevision 1 = some revision) :
    (s.store revision reply.view).Sound (views ++ [reply.view]) := by
  refine ⟨held.named, fun first => ?_, held.generation, held.believed.next ?_, ?_, ?_⟩
  · rw [store_begun] at first
    cases first
  · rw [Runtime.initializing, held.trace] at ok
    obtain ⟨_, view⟩ := reply
    cases status
    exact ok
  · rw [Trace.ofViews_snoc, ← held.trace]
    rfl
  · rw [List.length_append, ← held.stored]
    exact checkedAdd_eq_some.1 next

/-- The revision of a view cannot run out: it counts the believed replies. -/
theorem snapshotRevision_next {s : Runtime} {views : List NativeView} (held : s.Sound views) :
    checkedAdd s.view.snapshotRevision 1 ≠ none := by
  intro exhausted
  have := checkedAdd_eq_none.1 exhausted
  have := held.stored
  have := held.believed.length_le
  have one : (1 : UInt64).toNat = 1 := rfl
  omega

/-- A run that goes on after a reply ends, or can be told to go on. -/
theorem proceed_rest {s : Runtime} {expired halted paused : Bool} (now : Duration)
    (live : s.view.state.terminal = false) (expiring : expired = false → s.expiring = false)
    (running : paused = false → s.view.state = .running) :
    (s.proceed expired halted paused now).view.state.terminal = true
      ∨ (s.proceed expired halted paused now).view.state = .paused
      ∨ (s.proceed expired halted paused now).view.state = .running := by
  cases expired with
  | true => exact .inl (s.terminate_terminal rfl _)
  | false =>
      have going := expiring rfl
      cases halted with
      | true => exact .inl (s.terminate_terminal rfl _)
      | false =>
          cases paused with
          | true =>
              have allowed : s.view.state.allows .paused = true := by
                rw [Runtime.expiring] at going
                revert live going
                cases s.view.state <;> simp [State.allows, State.terminal]
              refine .inr (.inl ?_)
              rw [Runtime.proceed]
              simp [Runtime.transition, allowed]
          | false =>
              refine .inr (.inr ?_)
              rw [Runtime.proceed]
              simp [Runtime.transition, running rfl, State.allows, State.terminal]

theorem proceed_revises {s : Runtime} (expired halted paused : Bool) (now : Duration)
    (begun : s.initializing = false) : s.Revises (s.proceed expired halted paused now) := by
  have timed (next : Runtime) (tick : Option Duration) : next.Revises { next with nextTick := tick } :=
    Runtime.revises_of_state rfl (UInt64.le_refl _) rfl rfl id rfl rfl rfl
  rw [Runtime.proceed]
  apply Runtime.Revises.trans _ (timed _ _)
  split
  · exact s.terminate_revises rfl _
  split
  · exact s.terminate_revises rfl _
  split
  · exact Runtime.transition_revises rfl fun _ _ => begun
  · exact Runtime.transition_revises rfl (by simp)

theorem accept_ends {outside : Outside} {s : Runtime} {reply : NativeReply} {r : WireRequest}
    (found : o.session = some s) (flying : o.exchange = some r)
    (ok : validateNative s.spec s.view.trace reply s.initializing = .ok ())
    (status : reply.status = 0) :
    Ends renews o none
      (({ o with exchange := none }.emit (.validated reply)).accept outside s reply.view) := by
  intro sound
  obtain ⟨held, fresh⟩ := sound.run s found
  obtain ⟨w, same, awaits⟩ := sound.flight r flying
  cases found.symm.trans same
  rw [accept]
  cases next : checkedAdd s.view.snapshotRevision 1 with
  | none => exact absurd next (snapshotRevision_next held)
  | some revision =>
      simp only []
      generalize (reply.view.state == NativeState.halted) = halted
      generalize late : (s.expiring || decide (s.deadline ≤ outside.now)) = expired
      generalize rests : (s.initializing || s.view.state != .running
        || ({ o with exchange := none }.emit (.validated reply)).pause.isSome) = paused
      have stored := store_sound held ok status next
      have begun := store_begun s revision reply.view
      have rest := @proceed_rest (s.store revision reply.view) expired halted paused outside.now
        awaits.live (fun going => (Bool.or_eq_false_iff.1 (late.trans going)).1) (fun going => by
          have := rests.trans going
          simp only [Bool.or_eq_false_iff, bne_eq_false_iff_eq] at this
          exact this.1.2)
      have revises := proceed_revises (s := s.store revision reply.view) expired halted paused
        outside.now begun
      generalize (s.store revision reply.view).proceed expired halted paused outside.now = last at *
      have kept : Sound { { o with exchange := none }.emit (.validated reply) with
          session := some last } none := by
        refine ⟨sound.lawful.snoc ?_, ?_, ?_, ?_, ?_, ?_, ?_, ?_⟩
        · exact ⟨r, sound.wire.trans flying, awaits.executes held⟩
        · simpa [emit, Deed.live] using sound.helper
        · simp [emit, Deed.flight]
        · intro j member
          exact sound.parked j (by simpa [emit] using member)
        · intro j member
          exact sound.skipped j (by simpa [emit] using member)
        · intro j
          simpa [emit, Deed.answers] using sound.account j
        · rintro w ⟨⟩
          have views : accepted (o.log ++ [.validated reply]) = accepted o.log ++ [reply.view] := by
            simp [Deed.accept, status]
          exact ⟨by simpa only [emit, views] using stored.revises revises,
            by rw [revises.same.spec]; exact fresh⟩
        · rintro w ⟨⟩
      have follows : Follows o { { o with exchange := none }.emit (.validated reply) with
          session := some last } := by
        refine ⟨?_, rfl, rfl, rfl⟩
        rw [SameRun, found]
        refine .some ⟨revises.same.spec, revises.same.revision, fun final => ?_⟩
        rw [awaits.live] at final
        cases final
      generalize accepted : { { o with exchange := none }.emit (.validated reply) with
        session := some last } = p at *
      have found' : p.session = some last := by rw [← accepted]
      have idle : p.exchange = none := by rw [← accepted]; rfl
      have concludes : Ends renews p none (p.conclude outside last (paused || halted || expired)
        (expired || halted)) := conclude_ends found' idle rest
      obtain ⟨kept', settled, passes⟩ := concludes kept
      exact ⟨kept', settled, follows.passes.trans passes⟩

theorem complete_of {outside : Outside} {result : Except Error NativeReply} {s : Runtime}
    (found : o.session = some s) :
    o.complete outside result = match s.validated result with
      | .error error => (o.emit .dropped).fail outside s error
      | .ok reply =>
          if reply.status != 0 then (o.emit (.validated reply)).refuse outside reply.status
          else (o.emit (.validated reply)).accept outside s reply.view := by
  rw [complete]
  split
  · rename_i none
    rw [found] at none
    cases none
  · rename_i w same
    cases found.symm.trans same
    rfl

theorem complete_ends {outside : Outside} {result : Except Error NativeReply} {r : WireRequest}
    (flying : o.exchange = some r) :
    Ends renews o none ({ o with exchange := none }.complete outside result) := by
  intro sound
  obtain ⟨s, found, -⟩ := sound.flight r flying
  rw [complete_of (o := { o with exchange := none }) found]
  cases judged : s.validated result with
  | error error =>
      have dropped : o.abandon = { o with exchange := none }.emit .dropped := by rw [abandon, flying]
      have final : (if s.expiring then State.expired else .failed).terminal = true := by
        split <;> rfl
      simp only [← dropped]
      exact abandon_leads.then (giveUp_ends final _ _ outside.reaped _) sound
  | ok reply =>
      obtain ⟨-, ok⟩ := validated_ok judged
      simp only []
      split
      · rename_i refuses
        have final : (if reply.status == 5 then State.expired else .failed).terminal = true := by
          split <;> rfl
        exact (refused_leads flying (by simpa using refuses)).then (giveUp_ends final _ _ outside.reaped _)
          sound
      · rename_i status
        exact accept_ends found flying ok (by simpa using status) sound

/-! ## Turns -/

/-- Whether a turn handles a request that may change which run there is. -/
def renewsRun (t : Turn) : Bool :=
  match t.event with
  | .message request _ => request.action.renews
  | _ => false

/-- The envelope a turn takes from a mailbox: whether its client had gone. -/
def takes (t : Turn) : List Bool :=
  match t.event with
  | .message _ closed => [closed]
  | _ => []

/-- What holds of the actor between two turns. -/
structure Reached (o : Owner) : Prop where
  sound : Sound o none
  waiters : o.exchange = none → o.pending = none ∧ o.pause = none
  settled : o.stopped = false → Settled o

theorem initial_reached (instanceId : String) : Reached (initial instanceId) := by
  have sound : Sound (initial instanceId) none := by
    refine ⟨lawful_nil, rfl, rfl, ?_, ?_, ?_, ?_, ?_⟩
    · intro k member
      cases member
    · intro k member
      cases member
    · intro k
      rfl
    · rintro s ⟨⟩
    · rintro r ⟨⟩
  have settled : Settled (initial instanceId) := .quiet rfl rfl (by rintro s ⟨⟩)
  exact ⟨sound, settled.waiters, fun _ => settled⟩

theorem shutdown_leads (reaped : Option DisposalFailure) (error : Error) :
    Leads o hand ((o.abandon.rejectWaiters error).dispose reaped).1 hand := by
  apply Leads.trans _ (dispose_leads ((rejectWaiters_exchange error).trans abandon_idle) reaped)
  exact abandon_leads.trans (rejectWaiters_leads abandon_idle error)

/-- What a turn passes to the next. -/
structure Turned (t : Turn) (o o' : Owner) : Prop where
  continues : Continues o o'
  run : renewsRun t = false → SameRun o o'
  taken : o'.taken = o.taken ++ takes t

theorem Passes.turned {t : Turn} (passes : Passes (renewsRun t) o o') (takes : takes t = []) :
    Turned t o o' :=
  ⟨passes.continues, passes.run, by rw [passes.taken, takes, List.append_nil]⟩

theorem turn_reached {t : Turn} (step : o.turn t = some o') (reached : Reached o) :
    Reached o' ∧ Turned t o o' := by
  rw [turn] at step
  split at step
  · cases step
  rename_i running
  have settled := checkTime_settled (reached.settled (by simpa using running)) t.now t.reaped
  have checks : Leads o none (o.checkTime t.now t.reaped) none := checkTime_leads t.now t.reaped
  have checked := checks reached.sound
  generalize o.checkTime t.now t.reaped = p at *
  obtain ⟨sound, follows⟩ := checked
  have ended {q : Owner} (ends : Ends (renewsRun t) p none q) (quiet : takes t = []) :
      Reached q ∧ Turned t o q := by
    obtain ⟨kept, settled, passes⟩ := ends sound
    exact ⟨⟨kept, settled.waiters, fun _ => settled⟩, (follows.passes.trans passes).turned quiet⟩
  cases event : t.event with
  | shutdown =>
      simp only [event] at step
      cases step
      obtain ⟨kept, follows'⟩ := shutdown_leads t.outside.reaped (uncertain .disconnected) sound
      have gone := follows.trans follows'
      refine ⟨⟨⟨kept.lawful, kept.helper, kept.wire, kept.parked, kept.skipped, kept.account, kept.run,
        kept.flight⟩, fun _ => ?_, fun running => ?_⟩, ⟨gone.continues.next, gone.continues.runs⟩,
        fun _ => gone.run, ?_⟩
      · exact ⟨(dispose_pending _).trans (rejectWaiters_pending _),
          (dispose_pause _).trans (rejectWaiters_pause _)⟩
      · cases running
      · rw [takes, event, List.append_nil]
        exact gone.taken
  | message request closed =>
      simp only [event] at step
      cases step
      obtain ⟨kept, settled, passes⟩ := receive_ends settled sound
      refine ⟨⟨kept, settled.waiters, fun _ => settled⟩,
        follows.continues.trans ⟨passes.continues.next, passes.continues.runs⟩, ?_, ?_⟩
      · intro kept
        rw [renewsRun, event] at kept
        exact follows.run.trans (passes.run kept)
      · rw [passes.taken, takes, event]
        exact congrArg (· ++ [closed]) follows.taken
  | reply result =>
      simp only [event] at step
      split at step
      · cases step
        rename_i flying
        obtain ⟨r, flying⟩ := Option.isSome_iff_exists.1 flying
        exact ended (complete_ends flying) (by rw [takes, event])
      · cases step
  | timer =>
      simp only [event] at step
      split at step
      · cases step
        exact ended (tick_ends settled) (by rw [takes, event])
      · cases step
  | mailboxClosed =>
      simp only [event] at step
      cases step
      exact ended (Leads.refl.ends settled) (by rw [takes, event])

/-- Where a run of the actor gets to, and what it has passed on the way. -/
theorem play_reached {turns : List Turn} (run : play turn o turns = some o') (reached : Reached o) :
    Reached o' ∧ Continues o o' :=
  @play_relates Owner Turn turn Reached Continues
    (fun step reached => (turn_reached step reached).1)
    (fun o => (@Follows.of_session o o rfl rfl rfl rfl).continues) Continues.trans
    (fun step reached => (turn_reached step reached).2.continues) _ _ _ run reached

theorem initial_play {instanceId : String} {turns : List Turn}
    (run : play turn (initial instanceId) turns = some o) : Reached o :=
  (play_reached run (initial_reached instanceId)).1

/-- Two moments of one run of the helper: what is later is no further back. -/
theorem play_sameRun {turns : List Turn} {s s' : Runtime} (run : play turn o turns = some o')
    (reached : Reached o) (found : o.session = some s) (found' : o'.session = some s')
    (same : s'.spec.generation = s.spec.generation) : s.SameRun s' := by
  obtain ⟨-, continues⟩ := play_reached run reached
  rcases continues.runs s' found' with ⟨w, before, later⟩ | fresh
  · cases found.symm.trans before
    exact later
  · have numbered := (reached.sound.run s found).2
    rw [same, UInt64.le_iff_toNat_le] at fresh
    rw [UInt64.lt_iff_toNat_lt] at numbered
    omega

end Reb.Debugger.Owner
