/-
# Console.ConsoleKept -- what stays true of a session

Of the record of its exchanges: a command goes to the document that was connected last,
right after a listing that has it, and to none that was reported gone since
(`Sound`).  Of the armed set: what the browser may hold is noted (`Honest.armed`).
-/
import Reb.Console.ConsoleAction

namespace Reb.Console

set_option autoImplicit false

/-! ## Records of exchanges -/

namespace Event

def connects : Event → Bool
  | .connected _ => true
  | .exchanged _ _ _ _ _ => false

/-- A listing without the target, or a reply to a command for it that says it is gone. -/
def ReportsGone (target : Nat) : Event → Prop
  | .exchanged _ operation named _ (some value) =>
      (∃ ids, value.listed = some ids ∧ target ∉ ids) ∨
        ((operation = 2 ∨ operation = 3) ∧ value.status = some "stale_target" ∧ named = target)
  | _ => False

def Lists (target : Nat) : Event → Prop
  | .exchanged _ _ _ _ (some value) => ∃ ids, value.listed = some ids ∧ target ∈ ids
  | _ => False

/-- A runtime or evaluate command of a caller. -/
def Commands (target : Nat) : Event → Prop
  | .exchanged .command operation named _ _ => (operation = 2 ∨ operation = 3) ∧ named = target
  | _ => False

end Event

/-- The target was connected last, and this came after. -/
def Since (log : List Event) (target : Nat) (between : List Event) : Prop :=
  (∃ before, log = before ++ .connected target :: between) ∧ ∀ event ∈ between, event.connects = false

/-- The target was connected last, and was not reported gone since. -/
def Chosen (log : List Event) (target : Nat) : Prop :=
  ∃ between, Since log target between ∧ ∀ event ∈ between, ¬ event.ReportsGone target

/-- The target was connected last, and was sent a command since. -/
def Used (log : List Event) (target : Nat) : Prop :=
  ∃ between, Since log target between ∧ ∃ event ∈ between, event.Commands target

/-- What may be sent with this record: any operation but a runtime or an evaluate one, one
of these to the chosen target just listed, or the cleanup of a target that was used. -/
def Allowed (log : List Event) (purpose : Purpose) (operation target : Nat) (source : String) : Prop :=
  operation = 2 ∨ operation = 3 →
    (purpose ≠ .release ∧ Chosen log target ∧ ∃ event, log.getLast? = some event ∧ event.Lists target) ∨
      (purpose = .release ∧ operation = 3 ∧ source = clearCommand ∧ Used log target)

def Sound (log : List Event) : Prop :=
  ∀ before purpose operation target source answer after,
    log = before ++ .exchanged purpose operation target source answer :: after →
      Allowed before purpose operation target source

variable {log : List Event} {event : Event} {target : Nat}

theorem Since.append {between : List Event} (since : Since log target between)
    (other : event.connects = false) : Since (log ++ [event]) target (between ++ [event]) := by
  obtain ⟨⟨before, rfl⟩, quiet⟩ := since
  refine ⟨⟨before, by rw [List.append_assoc, List.cons_append]⟩, ?_⟩
  exact List.forall_mem_append.2 ⟨quiet, List.forall_mem_singleton.2 other⟩

theorem Chosen.append (chosen : Chosen log target) (other : event.connects = false)
    (still : ¬ event.ReportsGone target) : Chosen (log ++ [event]) target := by
  obtain ⟨between, since, present⟩ := chosen
  exact ⟨between ++ [event], since.append other,
    List.forall_mem_append.2 ⟨present, List.forall_mem_singleton.2 still⟩⟩

theorem Used.append (used : Used log target) (other : event.connects = false) :
    Used (log ++ [event]) target := by
  obtain ⟨between, since, command, member, commands⟩ := used
  exact ⟨between ++ [event], since.append other, command, List.mem_append_left _ member, commands⟩

theorem Chosen.used (chosen : Chosen log target) (other : event.connects = false)
    (commands : event.Commands target) : Used (log ++ [event]) target := by
  obtain ⟨between, since, -⟩ := chosen
  exact ⟨between ++ [event], since.append other, event, List.mem_append_right _ List.mem_cons_self,
    commands⟩

theorem chosen_connected (log : List Event) (target : Nat) :
    Chosen (log ++ [.connected target]) target :=
  ⟨[], ⟨⟨log, rfl⟩, fun _ member => absurd member List.not_mem_nil⟩,
    fun _ member => absurd member List.not_mem_nil⟩

theorem sound_nil : Sound [] := by
  intro before purpose operation target source answer after split
  cases before <;> cases split

theorem Sound.append (sound : Sound log)
    (allowed : ∀ purpose operation target source answer,
      event = .exchanged purpose operation target source answer →
        Allowed log purpose operation target source) : Sound (log ++ [event]) := by
  intro before purpose operation target source answer after split
  rcases List.eq_nil_or_concat' after with rfl | ⟨after, last, rfl⟩
  · obtain ⟨rfl, same⟩ := List.append_inj' split rfl
    exact allowed _ _ _ _ _ (List.singleton_inj.1 same)
  · rw [← List.cons_append, ← List.append_assoc] at split
    obtain ⟨split, -⟩ := List.append_inj' split rfl
    exact sound before purpose operation target source answer after split

theorem Sound.exchanged {purpose : Purpose} {operation : Nat} {source : String}
    {answer : Option Value} (sound : Sound log) (allowed : Allowed log purpose operation target source) :
    Sound (log ++ [.exchanged purpose operation target source answer]) := by
  refine sound.append fun _ _ _ _ _ same => ?_
  obtain ⟨rfl, rfl, rfl, rfl, -⟩ := Event.exchanged.inj same
  exact allowed

theorem allowed_other {purpose : Purpose} {operation : Nat} {source : String}
    (other : ¬ (operation = 2 ∨ operation = 3)) : Allowed log purpose operation target source :=
  fun commands => absurd commands other

/-! ## Sessions -/

/-- At every moment. -/
structure Session.Honest (session : Session) : Prop where
  sound : session.live = true → Sound session.peer.log
  armed : session.peer.armed = true ∨ session.peer.unanswered = true →
    session.documentStartArmed = true
  unanswered : session.peer.unanswered = true → session.poisoned = true

/-- While the session is open. -/
structure Session.Kept (session : Session) : Prop extends session.Honest where
  selected : session.live = true → ∀ target, session.liveTarget = some target →
    Chosen session.peer.log target
  accessed : session.live = true → ∀ target ∈ session.accessedTargets, Used session.peer.log target

/-- While it is the idle binding. -/
structure Session.Idle (session : Session) : Prop extends session.Kept where
  live : session.live = true
  unselected : session.liveTarget = none
  unaccessed : session.accessedTargets = []
  disarmed : session.documentStartArmed = false

variable {crates : Crates} {wire : Wire} {session : Session} {purpose : Purpose} {operation : Nat}
  {source : String} {health : Health}

/-- What an exchange comes to. -/
inductive Exchanged (wire : Wire) (session : Session) (operation target : Nat) (source : String)
    (purpose : Purpose) (result : Except Error Value × Session) : Prop where
  | exhausted (error : Error) (refused : result.1 = .error error)
      (after : result.2 = { session with poisoned := true })
  | unanswered (error : Error) (refused : result.1 = .error error)
      (after : result.2 = session.unanswered wire purpose operation target source)
  | answered (value : Value) (accepted : result.1 = .ok value)
      (listing : value.listed.isSome ↔ operation = 1)
      (after : result.2 = session.answered wire purpose operation target source value)

theorem received_listed {request : Nat} {name : String} {answer : Answer} {value : Value}
    (replied : received crates request operation name answer = .ok value) :
    value.listed.isSome ↔ operation = 1 := by
  cases answer with
  | timedOut | broken => cases replied
  | bytes header payload =>
      rw [received] at replied
      split at replied
      · cases replied
      split at replied
      · cases replied
      next parsed parses =>
      split at replied
      · cases replied
      split at replied
      · cases replied
      next read valued =>
      obtain rfl := Except.ok.inj replied
      show read.listed.isSome ↔ operation = 1
      exact value_listed parses valued

theorem exchange_spec (crates : Crates) (wire : Wire) (session : Session) (operation target : Nat)
    (source : String) (purpose : Purpose) :
    Exchanged wire session operation target source purpose
      (session.exchange crates wire operation target source purpose) := by
  rw [Session.exchange]
  dsimp only
  split
  · exact .exhausted _ rfl rfl
  · cases replied : received crates session.nextRequest operation session.id
        (wire.answers session.nextRequest) with
    | error error => exact .unanswered error rfl rfl
    | ok value => exact .answered value rfl (received_listed replied) rfl

namespace Session

theorem Honest.noted (honest : session.Honest) (armed : session.peer.armed = true) :
    session.documentStartArmed = true :=
  honest.armed (.inl armed)

theorem armedAfter_noted (listed : Option Bool) (effect : Bool)
    (noted : session.peer.armed = true → session.documentStartArmed = true)
    (arms : purpose = .arm → session.documentStartArmed = true)
    (holds : session.peer.armedAfter purpose listed effect = true) :
    listed.getD session.documentStartArmed = true := by
  cases listed with
  | some listed => exact holds
  | none =>
      rw [Peer.armedAfter] at holds
      show session.documentStartArmed = true
      split at holds
      case isTrue arm => exact arms (beq_iff_eq.1 arm)
      case isFalse => exact noted (Bool.and_eq_true_iff.1 holds).1

theorem Honest.unanswered_ (honest : session.Honest)
    (allowed : session.live = true → Allowed session.peer.log purpose operation target source)
    (arms : purpose = .arm → session.documentStartArmed = true) :
    (session.unanswered wire purpose operation target source).Honest where
  sound := fun live => (honest.sound live).exchanged (allowed live)
  armed := by
    rintro (holds | late)
    · have noted := armedAfter_noted none (wire.effects session.nextRequest) honest.noted arms holds
      exact noted
    · rcases Bool.or_eq_true_iff.1 late with before | arm
      · exact honest.armed (.inr before)
      · exact arms (beq_iff_eq.1 arm)
  unanswered := fun _ => rfl

theorem Honest.answered (honest : session.Honest) (usable : session.poisoned = false)
    (allowed : session.live = true → Allowed session.peer.log purpose operation target source)
    (arms : purpose = .arm → session.documentStartArmed = true) (value : Value) :
    (session.answered wire purpose operation target source value).Honest where
  sound := fun live => (honest.sound live).exchanged (allowed live)
  armed := by
    rintro (holds | late)
    · exact armedAfter_noted _ _ honest.noted arms holds
    · exact absurd (usable.symm.trans (honest.unanswered late)) Bool.false_ne_true
  unanswered := fun late => absurd (usable.symm.trans (honest.unanswered late)) Bool.false_ne_true

theorem Kept.answered (kept : session.Kept) (usable : session.poisoned = false)
    (allowed : session.live = true → Allowed session.peer.log purpose operation target source)
    (arms : purpose = .arm → session.documentStartArmed = true) {value : Value}
    (still : ∀ selected, session.liveTarget = some selected →
      ¬ (Event.exchanged purpose operation target source (some value)).ReportsGone selected) :
    (session.answered wire purpose operation target source value).Kept :=
  { kept.toHonest.answered usable allowed arms value with
    selected := fun live selected chosen =>
      (kept.selected live selected chosen).append rfl (still selected chosen)
    accessed := fun live used member => (kept.accessed live used member).append rfl }

end Session

theorem exchange_honest (honest : session.Honest) (usable : session.poisoned = false)
    (allowed : session.live = true → Allowed session.peer.log purpose operation target source)
    (arms : purpose = .arm → session.documentStartArmed = true) :
    (session.exchange crates wire operation target source purpose).2.Honest := by
  cases exchange_spec crates wire session operation target source purpose with
  | exhausted error refused after =>
      rw [after]
      exact { honest with unanswered := fun _ => rfl }
  | unanswered error refused after =>
      rw [after]
      exact honest.unanswered_ allowed arms
  | answered value accepted listing after =>
      rw [after]
      exact honest.answered usable allowed arms value

theorem ended_usable (usable : session.ended health = none) : session.poisoned = false := by
  rw [Session.ended] at usable
  split at usable
  · cases usable
  · next clean => exact Bool.not_eq_true _ ▸ clean

/-! ## A listing -/

theorem status_listed {value : Value} {ids : List Nat} (listed : value.listed = some ids) :
    value.status = none := by
  rw [Value.listed] at listed
  rw [Value.status]
  split at listed
  case h_1 body => rw [body]
  case h_2 => cases listed

/-- A listing that has the target does not report it gone. -/
theorem listing_present {value : Value} {ids : List Nat} {named : Nat}
    (listed : value.listed = some ids) (present : target ∈ ids) :
    ¬ (Event.exchanged purpose operation named source (some value)).ReportsGone target := by
  rintro (⟨others, same, absent⟩ | ⟨-, stale, -⟩)
  · obtain rfl := Option.some.inj (listed.symm.trans same)
    exact absent present
  · rw [status_listed listed] at stale
    cases stale

structure Relisted (session session' : Session) : Prop where
  kept : session'.Kept
  usable : session'.poisoned = false
  live : session'.live = session.live
  accessed : session'.accessedTargets = session.accessedTargets
  noted : session'.documentStartArmed = session.documentStartArmed
  selected : ∀ target, session'.liveTarget = some target → session.liveTarget = some target
  listed : ∀ target ∈ session'.nativeTargets,
    ∃ event, session'.peer.log.getLast? = some event ∧ event.Lists target
  still : ∀ target ∈ session'.nativeTargets, session.liveTarget = some target →
    session'.liveTarget = some target

/-- What a listing comes to. -/
inductive Lists (session : Session) (result : Except Error LiveListing × Session) : Prop where
  | failed (error : Error) (refused : result.1 = .error error) (honest : result.2.Honest)
      (live : result.2.live = session.live)
      (noted : result.2.documentStartArmed = session.documentStartArmed)
  | listed (listing : LiveListing) (accepted : result.1 = .ok listing)
      (relisted : Relisted session result.2)

theorem relisted_spec (session : Session) (ids : List Nat) :
    ∃ liveTarget staleTarget, session.relisted ids =
        { session with nativeTargets := ids, liveTarget := liveTarget, staleTarget := staleTarget } ∧
      ∀ target, liveTarget = some target ↔ session.liveTarget = some target ∧ target ∈ ids := by
  rw [Session.relisted]
  cases chosen : session.liveTarget with
  | none =>
      refine ⟨none, session.staleTarget, rfl, fun target => ?_⟩
      exact iff_of_false (by rintro ⟨⟩) (by rintro ⟨⟨⟩, -⟩)
  | some selected =>
      dsimp only
      split
      case isTrue present =>
        refine ⟨some selected, session.staleTarget, rfl, fun target => ?_⟩
        refine (and_iff_left_of_imp fun same => ?_).symm
        exact Option.some.inj same ▸ List.contains_iff_mem.1 present
      case isFalse absent =>
        refine ⟨none, some selected, rfl, fun target => ?_⟩
        refine iff_of_false (by rintro ⟨⟩) ?_
        rintro ⟨same, present⟩
        obtain rfl := Option.some.inj same
        exact absent (List.contains_iff_mem.2 present)

theorem relisted_kept (kept : session.Kept) (usable : session.poisoned = false) {value : Value}
    {ids : List Nat} (listed : value.listed = some ids) :
    Relisted session ((session.answered wire .command 1 0 "" value).relisted ids) := by
  have honest : (session.answered wire .command 1 0 "" value).Honest :=
    kept.toHonest.answered usable (fun _ => allowed_other (by decide)) (by rintro ⟨⟩) value
  obtain ⟨sound, armed, unanswered⟩ := honest
  obtain ⟨liveTarget, staleTarget, same, chosen⟩ :=
    relisted_spec (session.answered wire .command 1 0 "" value) ids
  rw [same]
  have selects : ∀ target, liveTarget = some target →
      session.liveTarget = some target ∧ target ∈ ids := fun target => (chosen target).1
  constructor
  case kept =>
    refine ⟨⟨sound, armed, unanswered⟩, fun live target selected => ?_, fun live target member => ?_⟩
    · obtain ⟨before, present⟩ := selects target selected
      exact (kept.selected live target before).append rfl (listing_present listed present)
    · exact (kept.accessed live target member).append rfl
  case usable => rfl
  case live => rfl
  case accessed => rfl
  case noted => rfl
  case selected => exact fun target selected => (selects target selected).1
  case listed =>
    exact fun target present => ⟨_, List.getLast?_concat, ids, listed, present⟩
  case still => exact fun target present before => (chosen target).2 ⟨before, present⟩

theorem listLive_spec (crates : Crates) (wire : Wire) (kept : session.Kept)
    (usable : session.poisoned = false) : Lists session (session.listLive crates wire) := by
  have honest := @exchange_honest 0 crates wire session .command 1 "" kept.toHonest usable
    (fun _ => allowed_other (by decide)) (by rintro ⟨⟩)
  have exchanged := exchange_spec crates wire session 1 0 "" .command
  rw [Session.listLive]
  generalize session.exchange crates wire 1 0 "" = result at honest exchanged ⊢
  obtain ⟨outcome, after⟩ := result
  cases exchanged with
  | exhausted error refused same | unanswered error refused same =>
      obtain rfl : outcome = .error error := refused
      obtain rfl := same
      exact .failed error rfl honest rfl rfl
  | answered value accepted listing same =>
      obtain rfl : outcome = .ok value := accepted
      obtain rfl := same
      obtain ⟨ids, listed⟩ := Option.isSome_iff_exists.1 (listing.2 rfl)
      dsimp only
      rw [listed]
      exact .listed _ rfl (relisted_kept kept usable listed)

/-! ## The cleanup of a Stop -/

theorem releaseLoop_spec (crates : Crates) (wire : Wire) (targets : List Nat) (honest : session.Honest)
    (usable : session.poisoned = false) (used : ∀ target ∈ targets, Used session.peer.log target) :
    let result := Session.releaseLoop crates wire targets session
    result.2.Honest ∧ result.2.live = session.live ∧
      (result.1 = .ok () → result.2.poisoned = false ∧ result.2.accessedTargets = [] ∧
        result.2.documentStartArmed = session.documentStartArmed) := by
  induction targets generalizing session with
  | nil => exact ⟨⟨honest.sound, honest.armed, honest.unanswered⟩, rfl, fun _ => ⟨usable, rfl, rfl⟩⟩
  | cons target rest ih =>
      have allowed : session.live = true →
          Allowed session.peer.log .release 3 target clearCommand :=
        fun _ _ => .inr ⟨rfl, rfl, rfl, used target List.mem_cons_self⟩
      have kept := @exchange_honest target crates wire session .release 3 clearCommand honest usable allowed
        (by rintro ⟨⟩)
      have exchanged := exchange_spec crates wire session 3 target clearCommand .release
      dsimp only
      rw [Session.releaseLoop]
      generalize session.exchange crates wire 3 target clearCommand .release = result
        at kept exchanged ⊢
      obtain ⟨outcome, after⟩ := result
      cases exchanged with
      | exhausted error refused same | unanswered error refused same =>
          obtain rfl : outcome = .error error := refused
          obtain rfl := same
          exact ⟨kept, rfl, by rintro ⟨⟩⟩
      | answered value accepted listing same =>
          obtain rfl : outcome = .ok value := accepted
          obtain rfl := same
          dsimp only
          split
          · exact ⟨kept, rfl, by rintro ⟨⟩⟩
          · refine ih kept rfl fun other member => ?_
            exact (used other (List.mem_cons_of_mem _ member)).append rfl

theorem clearDocumentStart_spec (crates : Crates) (wire : Wire) (honest : session.Honest)
    (usable : session.poisoned = false) :
    let result := session.clearDocumentStart crates wire
    result.2.Honest ∧ result.2.live = session.live ∧
      (result.1 = .ok () → result.2.accessedTargets = session.accessedTargets ∧
        result.2.documentStartArmed = false) := by
  have kept := @exchange_honest 0 crates wire session .command 4 clearCommand honest usable
    (fun _ => allowed_other (by decide)) (by rintro ⟨⟩)
  have exchanged := exchange_spec crates wire session 4 0 clearCommand .command
  dsimp only
  rw [Session.clearDocumentStart]
  generalize session.exchange crates wire 4 0 clearCommand = result at kept exchanged ⊢
  obtain ⟨outcome, after⟩ := result
  cases exchanged with
  | exhausted error refused same | unanswered error refused same =>
      obtain rfl : outcome = .error error := refused
      obtain rfl := same
      exact ⟨kept, rfl, by rintro ⟨⟩⟩
  | answered value accepted listing same =>
      obtain rfl : outcome = .ok value := accepted
      obtain rfl := same
      dsimp only
      split
      case isTrue confirmed =>
        rw [Bool.and_eq_true, Bool.not_eq_true'] at confirmed
        exact ⟨kept, rfl, fun _ => ⟨rfl, confirmed.2⟩⟩
      case isFalse => exact ⟨kept, rfl, by rintro ⟨⟩⟩

end Reb.Console
