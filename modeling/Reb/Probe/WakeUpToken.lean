/-
# Probe.WakeUpToken -- no event waits for a wake-up that nobody sends

The notification flag is a token.  While it is set exactly one holder owes the queue a
Drain: the undelivered wake-up, the producer about to send one, or the host before its
clear.  While it is clear, a published front is looked at by the host or announced by
a producer that has not exchanged the flag yet.

The positions are words.  A producer that stands before its exchange while they go
once round (`stranded_after_wrap`) overwrites the front of a full ring, and the queue
is stuck; short of that no wake-up is lost (`no_wake_up_lost`).
-/
import Reb.Probe.WakeUp

namespace Reb.Probe

set_option autoImplicit false

open Theory.Interleaving

variable {ι : Type} {memory memory' : WakingMemory ι} {i : ι}

/-! ## The token -/

inductive Holder (ι : Type) where
  | wakeUp
  | producer (i : ι)
  | host

/-- The host in Drain, before it clears the flag. -/
def Host.owing : Host → Prop
  | .tryPop _ _ | .droppedCount _ | .clearNotification _ => True
  | _ => False

theorem leave_not_owing (turn : DrainTurn) : ¬ (Host.leave turn).owing := by
  rw [Host.leave]
  split <;> exact id

namespace WakingConfig

variable (config : WakingConfig ι)

def producer (i : ι) : Announcing := config.locals (.producer i)

def host : Host := config.locals .host

/-- Who owes the queue a Drain. -/
def Owes : Holder ι → Prop
  | .wakeUp => config.memory.undelivered ≠ 0
  | .producer i => config.producer i = .signal
  | .host => config.host.owing

structure Token : Prop where
  single : config.memory.undelivered ≤ 1
  held : ∃ holder, HeldBy config.Owes holder ∧ holder.isSome = config.memory.pending

end WakingConfig

variable {config config' : WakingConfig ι}

/-- A step of one producer; the other threads stay where they are. -/
structure ProducerMoves (i : ι) (config config' : WakingConfig ι) : Prop where
  step : AnnounceStep i config.memory (config.producer i) config'.memory (config'.producer i)
  producers : ∀ j, j ≠ i → config'.producer j = config.producer j
  host : config'.host = config.host

structure HostMoves (config config' : WakingConfig ι) : Prop where
  step : DrainStep config.memory config.host config'.memory config'.host
  producers : ∀ i, config'.producer i = config.producer i

theorem waking_moves (step : Step wakingMachine.access config config') :
    (∃ i, ProducerMoves i config config') ∨ HostMoves config config' := by
  obtain ⟨t, moves, others⟩ := step
  cases t with
  | producer i =>
      refine .inl ⟨i, wakingMachine_producer moves, fun j other => ?_, others _ (by simp)⟩
      exact others (.producer j) (fun same => other (HostThread.producer.inj same))
  | host => exact .inr ⟨wakingMachine_host moves, fun i => others (.producer i) (by simp)⟩

/-- Where neither the moving thread nor the wake-ups take or give the token away. -/
theorem WakingConfig.Token.keep (token : config.Token)
    (undelivered : config'.memory.undelivered = config.memory.undelivered)
    (pending : config'.memory.pending = config.memory.pending)
    (producers : ∀ i, config'.producer i = .signal ↔ config.producer i = .signal)
    (host : config'.host.owing ↔ config.host.owing) : config'.Token := by
  obtain ⟨single, holder, held, set⟩ := token
  refine ⟨undelivered.trans_le single, holder, held.keep fun h => ?_, set.trans pending.symm⟩
  cases h with
  | wakeUp => exact not_congr (undelivered ▸ Iff.rfl)
  | producer i => exact producers i
  | host => exact host

/-- The flag is clear: nobody owes a Drain. -/
theorem WakingConfig.Token.clear (token : config.Token) (clear : config.memory.pending = false) :
    HeldBy config.Owes none := by
  obtain ⟨-, holder, held, set⟩ := token
  rw [clear] at set
  cases holder with
  | none => exact held
  | some h => cases set

/-- Somebody owes a Drain: the flag is set. -/
theorem WakingConfig.Token.set (token : config.Token) {h : Holder ι} (owes : config.Owes h) :
    config.memory.pending = true := by
  obtain ⟨-, holder, held, set⟩ := token
  rw [(held h).1 owes] at set
  exact set.symm

/-- Somebody but the wake-ups owes a Drain: no wake-up is undelivered. -/
theorem WakingConfig.Token.delivered (token : config.Token) {h : Holder ι} (owes : config.Owes h)
    (other : h ≠ .wakeUp) : config.memory.undelivered = 0 := by
  obtain ⟨-, holder, held, -⟩ := token
  by_contra undelivered
  exact other (held.eq owes (show config.Owes .wakeUp from undelivered))

theorem ProducerMoves.token (moves : ProducerMoves i config config') (token : config.Token) :
    config'.Token := by
  obtain ⟨step, producers, host⟩ := moves
  generalize before : config.producer i = pc at step
  generalize after : config'.producer i = pc' at step
  generalize reached : config'.memory = memory' at step
  have elsewhere : ∀ j, j ≠ i → (config'.producer j = .signal ↔ config.producer j = .signal) :=
    fun j other => by rw [producers j other]
  have quiet : pc ≠ .signal → pc' ≠ .signal →
      ∀ j, config'.producer j = .signal ↔ config.producer j = .signal := by
    intro was is j
    by_cases same : j = i
    · subst same
      exact iff_of_false (after ▸ is) (before ▸ was)
    · exact elsewhere j same
  cases step with
  | first clear =>
      refine ⟨?_, some (.producer i), (token.clear clear).take after ?_, ?_⟩
      · rw [reached]
        exact token.single
      · intro h other owes
        cases h with
        | wakeUp =>
            rw [WakingConfig.Owes, reached] at owes
            exact owes
        | producer j => exact (elsewhere j (fun same => other (congrArg _ same))).1 owes
        | host =>
            rw [WakingConfig.Owes, host] at owes
            exact owes
      · rw [reached]
        rfl
  | later set =>
      refine token.keep (by rw [reached]) ?_ (quiet (by simp) (by simp)) (by rw [host])
      rw [reached]
      exact set.symm
  | signal =>
      have none := token.delivered (show config.Owes (.producer i) from before) (by simp)
      have set := token.set (show config.Owes (.producer i) from before)
      obtain ⟨single, holder, held, -⟩ := token
      refine ⟨by rw [reached]; simp [none], some .wakeUp,
        held.pass (show config.Owes (.producer i) from before) ?_ ?_ ?_, ?_⟩
      · rw [WakingConfig.Owes, after]
        simp
      · rw [WakingConfig.Owes, reached]
        simp
      · intro h other owes
        cases h with
        | wakeUp => exact absurd rfl other
        | producer j =>
            by_cases same : j = i
            · subst same
              rw [WakingConfig.Owes, after] at owes
              cases owes
            · exact (elsewhere j same).1 owes
        | host =>
            rw [WakingConfig.Owes, host] at owes
            exact owes
      · rw [reached]
        exact set.symm
  | refused => exact token.keep (by rw [reached]) (by rw [reached]) (quiet (by simp) (by simp)) (by rw [host])
  | push call spurious inside accessed =>
      refine token.keep (by rw [reached]) ?_ (quiet (by simp) (by simp)) (by rw [host])
      rw [reached]
      rfl

theorem HostMoves.token (moves : HostMoves config config') (token : config.Token) :
    config'.Token := by
  obtain ⟨step, producers⟩ := moves
  generalize before : config.host = host at step
  generalize after : config'.host = host' at step
  generalize reached : config'.memory = memory' at step
  have signals : ∀ j, config'.producer j = .signal ↔ config.producer j = .signal :=
    fun j => by rw [producers j]
  have same : memory'.undelivered = config.memory.undelivered →
      memory'.pending = config.memory.pending → (host'.owing ↔ host.owing) → config'.Token := by
    intro undelivered pending owing
    refine token.keep (reached ▸ undelivered) (reached ▸ pending) signals ?_
    rw [before, after]
    exact owing
  cases step with
  | stays => exact same rfl rfl Iff.rfl
  | starts turn delivered =>
      have set := token.set (show config.Owes .wakeUp from delivered)
      obtain ⟨single, holder, held, -⟩ := token
      have now : config'.memory.undelivered = 0 := by
        rw [reached]
        show config.memory.undelivered - 1 = 0
        omega
      refine ⟨by omega, some .host,
        held.pass (show config.Owes .wakeUp from delivered) (not_not.2 now) ?_ ?_, ?_⟩
      · rw [WakingConfig.Owes, after]
        trivial
      · intro h other owes
        cases h with
        | wakeUp => exact absurd now owes
        | producer j => exact (signals j).1 owes
        | host => exact absurd rfl other
      · rw [reached]
        exact set.symm
  | pop moves flag => exact same rfl flag Iff.rfl
  | popped turn => exact same rfl rfl Iff.rfl
  | counted ring flag => exact same rfl flag Iff.rfl
  | clear turn =>
      have owes : config.Owes .host := by
        rw [WakingConfig.Owes, before]
        trivial
      obtain ⟨single, holder, held, -⟩ := token
      refine ⟨by rw [reached]; exact single, none, held.drop owes ?_ ?_, by rw [reached]; rfl⟩
      · rw [WakingConfig.Owes, after]
        exact id
      · intro h stays
        cases h with
        | wakeUp =>
            rw [WakingConfig.Owes, reached] at stays
            exact stays
        | producer j => exact (signals j).1 stays
        | host =>
            rw [WakingConfig.Owes, after] at stays
            exact stays.elim
  | position turn => exact same rfl rfl Iff.rfl
  | empty turn unpublished => exact same rfl rfl (iff_of_false (leave_not_owing turn) id)
  | nonempty turn published => exact same rfl rfl Iff.rfl
  | continues turn clear =>
      refine ⟨by rw [reached]; exact token.single, some .host, (token.clear clear).take ?_ ?_,
        by rw [reached]; rfl⟩
      · rw [WakingConfig.Owes, after]
        trivial
      · intro h other owes
        cases h with
        | wakeUp =>
            rw [WakingConfig.Owes, reached] at owes
            exact owes
        | producer j => exact (signals j).1 owes
        | host => exact absurd rfl other
  | leaves turn set => exact same rfl set.symm (iff_of_false (leave_not_owing turn) id)
  | disabled turn => exact same rfl rfl Iff.rfl

/-! ## The front of the queue -/

/-- The host has cleared the flag and has not yet found the queue empty. -/
def Host.looking : Host → Prop
  | .emptyPosition _ | .emptySequence _ _ | .markNotification _ => True
  | _ => False

/-- The producer stands between winning this position and publishing it. -/
def TryPush.holding {Event : Type} (win : Win ι Event) : TryPush Event → Prop
  | .writeEvent event position | .storeSequence event position =>
      event = win.event ∧ position = win.position
  | _ => False

def Announcing.holding (win : Win ι NativeProbeEvent) : Announcing → Prop
  | .push pc => pc.holding win
  | .signal => False

namespace WakingConfig

variable (config : WakingConfig ι)

/-- While the flag is clear, a published front is seen by the host or yet to be announced. -/
def FrontSeen : Prop :=
  config.memory.pending = false →
    config.memory.ring.queue.dequeuePosition ∈ config.memory.ring.published →
      config.host.looking ∨ ∃ i, config.producer i = .push (.returned true)

/-- What a producer won it has published or is about to. -/
def WonKept : Prop :=
  ∀ win ∈ config.memory.ring.won, win.position ∈ config.memory.ring.published ∨
    (config.producer win.producer).holding win

end WakingConfig

/-- What an access of a producer publishes it returns for. -/
theorem TryPush.access_published {Event : Type} {call : Event × UInt64} {spurious : Bool}
    {run run' : ProbeQueueRun ι Event} {pc pc' : TryPush Event}
    (moves : TryPush.access i call spurious run pc = (run', pc')) :
    run'.published = run.published ∨ pc' = .returned true := by
  rcases TryPush.access_run moves with rfl | ⟨_, rfl⟩ | ⟨_, _, _, _, _, rfl⟩ |
    ⟨_, _, _, rfl⟩ | ⟨_, _, rfl, rfl⟩
  · exact .inl rfl
  · exact .inl rfl
  · exact .inl rfl
  · exact .inl rfl
  · exact .inr (congrArg Prod.snd moves).symm

theorem TryPop.access_published {Event : Type} {run run' : ProbeQueueRun ι Event}
    {pc pc' : TryPop Event} (moves : TryPop.access run pc = (run', pc')) :
    run'.published = run.published := by
  rcases TryPop.access_run moves with rfl | ⟨_, _, rfl⟩ | ⟨_, _, _, rfl⟩ | ⟨_, _, _, rfl⟩ <;> rfl

/-- What is won is held from then on, until it is published. -/
theorem TryPush.access_holding {Event : Type} {call : Event × UInt64} {spurious : Bool}
    {run run' : ProbeQueueRun ι Event} {pc pc' : TryPush Event} (win : Win ι Event)
    (moves : TryPush.access i call spurious run pc = (run', pc')) :
    (win ∈ run'.won → win ∈ run.won ∨ (win.producer = i ∧ pc'.holding win)) ∧
      (pc.holding win → win.position ∈ run'.published ∨ pc'.holding win) := by
  cases pc with
  | exchangePosition event droppedWeight position =>
      refine ⟨fun won => ?_, fun held => held.elim⟩
      simp only [TryPush.access] at moves
      split at moves
      · obtain ⟨rfl, rfl⟩ := Prod.mk.inj moves
        rcases List.mem_append.1 won with old | new
        · exact .inl old
        · rw [List.mem_singleton.1 new]
          exact .inr ⟨rfl, rfl, rfl⟩
      · obtain ⟨rfl, rfl⟩ := Prod.mk.inj moves
        exact .inl won
  | writeEvent event position =>
      obtain ⟨rfl, rfl⟩ := Prod.mk.inj moves
      exact ⟨.inl, .inr⟩
  | storeSequence event position =>
      obtain ⟨rfl, rfl⟩ := Prod.mk.inj moves
      refine ⟨.inl, fun held => .inl ?_⟩
      rw [← held.2]
      exact List.mem_append_right _ (List.mem_singleton_self _)
  | _ =>
      refine ⟨fun won => .inl ?_, fun held => held.elim⟩
      rcases TryPush.access_run moves with rfl | ⟨_, rfl⟩ | ⟨_, _, _, same, _, rfl⟩ |
        ⟨_, _, same, rfl⟩ | ⟨_, _, same, rfl⟩
      · exact won
      · exact won
      · cases same
      · cases same
      · cases same

theorem ProducerMoves.frontSeen (moves : ProducerMoves i config config') (seen : config.FrontSeen) :
    config'.FrontSeen := by
  intro clear published
  obtain ⟨step, producers, host⟩ := moves
  generalize before : config.producer i = pc at step
  generalize after : config'.producer i = pc' at step
  generalize reached : config'.memory = memory' at step clear published
  have kept : pc ≠ .push (.returned true) → config.memory.pending = false →
      config.memory.ring.queue.dequeuePosition ∈ config.memory.ring.published →
      config'.host.looking ∨ ∃ j, config'.producer j = .push (.returned true) := by
    intro inside wasClear wasPublished
    rcases seen wasClear wasPublished with looking | ⟨j, announces⟩
    · exact .inl (host ▸ looking)
    · have other : j ≠ i := by
        rintro rfl
        exact inside (before.symm.trans announces)
      exact .inr ⟨j, (producers j other).trans announces⟩
  cases step with
  | first | later => cases clear
  | signal => exact kept (by simp) clear published
  | refused => exact kept (by simp) clear published
  | push call spurious inside accessed =>
      have dequeue := (TryPush.access_consumer accessed).2.2.1
      rcases TryPush.access_published accessed with same | rfl
      · refine kept (by simp [inside]) clear ?_
        rw [← dequeue, ← same]
        exact published
      · exact .inr ⟨i, after⟩

theorem HostMoves.frontSeen (moves : HostMoves config config')
    (consistent : config.memory.ring.Consistent) (asserts : Host.Asserts config.memory config.host)
    (token : config.Token) (seen : config.FrontSeen) : config'.FrontSeen := by
  intro clear published
  obtain ⟨step, producers⟩ := moves
  generalize before : config.host = host at step asserts
  generalize after : config'.host = host' at step
  generalize reached : config'.memory = memory' at step clear published
  have owing : host.owing → config.memory.pending = true := by
    intro owing
    refine token.set (show config.Owes .host from ?_)
    rw [WakingConfig.Owes, before]
    exact owing
  have kept : (host.looking → host'.looking) → config.memory.pending = false →
      config.memory.ring.queue.dequeuePosition ∈ config.memory.ring.published →
      host'.looking ∨ ∃ j, config'.producer j = .push (.returned true) := by
    intro looks wasClear wasPublished
    rcases seen wasClear wasPublished with looking | ⟨j, announces⟩
    · exact .inl (looks (before ▸ looking))
    · exact .inr ⟨j, (producers j).trans announces⟩
  cases step with
  | stays => exact kept id clear published
  | starts turn delivered => exact kept id clear published
  | pop moves flag => exact absurd ((owing trivial).symm.trans (flag.symm.trans clear)) (by simp)
  | popped turn => exact kept id clear published
  | counted ring flag => exact absurd ((owing trivial).symm.trans (flag.symm.trans clear)) (by simp)
  | clear turn => exact .inl trivial
  | position turn => exact .inl trivial
  | @empty turn position unpublished =>
      obtain ⟨settled, rfl⟩ := asserts
      have carried := consistent.sequences config.memory.ring.queue.dequeuePosition
        ⟨settled.1.le, by rw [settled.1]; exact Nat.lt_add_of_pos_right (by decide)⟩
      rw [if_pos published] at carried
      exact absurd carried unpublished
  | nonempty turn => exact .inl trivial
  | continues | leaves => cases clear
  | disabled turn => exact kept id clear published

theorem ProducerMoves.wonKept (moves : ProducerMoves i config config') (kept : config.WonKept) :
    config'.WonKept := by
  intro win won
  obtain ⟨step, producers, host⟩ := moves
  generalize before : config.producer i = pc at step
  generalize after : config'.producer i = pc' at step
  generalize reached : config'.memory = memory' at step won ⊢
  have stays : win ∈ config.memory.ring.won →
      (∀ p ∈ config.memory.ring.published, p ∈ memory'.ring.published) →
      (pc.holding win → win.position ∈ memory'.ring.published ∨ pc'.holding win) →
      win.position ∈ memory'.ring.published ∨ (config'.producer win.producer).holding win := by
    intro was published holds
    rcases kept win was with already | holding
    · exact .inl (published _ already)
    · by_cases same : win.producer = i
      · rw [same, after]
        rw [same, before] at holding
        exact holds holding
      · rw [producers _ same]
        exact .inr holding
  cases step with
  | first | later | signal | refused => exact stays won (fun _ => id) (fun held => held.elim)
  | push call spurious inside accessed =>
      have holding := TryPush.access_holding win accessed
      rcases holding.1 won with old | ⟨own, held⟩
      · exact stays old (TryPush.access_consumer accessed).2.2.2 holding.2
      · rw [own, after]
        exact .inr held

theorem HostMoves.wonKept (moves : HostMoves config config') (kept : config.WonKept) :
    config'.WonKept := by
  intro win won
  have same : config'.memory.ring.won = config.memory.ring.won ∧
      config'.memory.ring.published = config.memory.ring.published := by
    rcases moves.step.ring with same | ⟨_, _, _, _, _, _, accessed⟩
    · exact same ▸ ⟨rfl, rfl⟩
    · exact ⟨TryPop.access_won accessed, TryPop.access_published accessed⟩
  rw [same.1] at won
  rw [same.2, moves.producers]
  exact kept win won

/-! ## Every run -/

/-- The invariant of the queue with its announcements. -/
structure WakingConfig.Awake (config : WakingConfig ι) : Prop where
  holds : Outline.Holds (fun memory => memory.ring.Consistent) WakingThread.Asserts config
  token : config.Token
  frontSeen : config.FrontSeen
  wonKept : config.WonKept

theorem WakingConfig.Awake.step (awake : config.Awake) (step : Step wakingMachine.access config config')
    (few : FewPushes config'.memory.ring) : config'.Awake := by
  have holds := waking_outline.step step few awake.holds
  rcases waking_moves step with ⟨i, moves⟩ | moves
  · exact ⟨holds, moves.token awake.token, moves.frontSeen awake.frontSeen,
      moves.wonKept awake.wonKept⟩
  · exact ⟨holds, moves.token awake.token,
      moves.frontSeen awake.holds.1 (awake.holds.2 .host) awake.token awake.frontSeen,
      moves.wonKept awake.wonKept⟩

/-- A producer between its reservation and the end of its announcement. -/
def Announcing.inPush : Announcing → Bool
  | .push (.writeEvent _ _) | .push (.storeSequence _ _) | .push (.returned true) | .signal => true
  | _ => false

/-- The host is outside Drain, no wake-up is undelivered and no push is half done. -/
structure WakingConfig.Quiet (config : WakingConfig ι) : Prop where
  outside : config.host = .idle
  delivered : config.memory.undelivered = 0
  announced : ∀ i, (config.producer i).inPush = false

/-- Where no push is half done everything reserved is published, in position order. -/
theorem WakingConfig.Awake.published_of_lt (awake : config.Awake)
    (announced : ∀ i, (config.producer i).inPush = false) {p : UInt64}
    (reserved : p.toNat < config.memory.ring.won.length) : p ∈ config.memory.ring.published := by
  have consistent := awake.holds.1
  have inj : (config.memory.ring.won.map (·.position.toNat)).Nodup := by
    have := consistent.wonOnce.map (f := UInt64.toNat) (fun a b => UInt64.toNat_inj.1)
    rwa [List.map_map] at this
  have below : config.memory.ring.won.map (·.position.toNat) ⊆
      List.range config.memory.ring.won.length := by
    intro n member
    obtain ⟨win, won, rfl⟩ := List.mem_map.1 member
    exact List.mem_range.2 (consistent.wonBelow win won)
  have all : (config.memory.ring.won.map (·.position.toNat)).Perm
      (List.range config.memory.ring.won.length) :=
    (List.subperm_of_subset inj below).perm_of_length_le (by simp)
  obtain ⟨win, won, same⟩ := List.mem_map.1 (all.mem_iff.2 (List.mem_range.2 reserved))
  obtain rfl := UInt64.toNat_inj.1 same
  rcases awake.wonKept win won with published | holding
  · exact published
  · have still := announced win.producer
    generalize config.producer win.producer = pc at still holding
    cases pc with
    | signal => exact holding.elim
    | push pc =>
        cases pc with
        | writeEvent | storeSequence => cases still
        | _ => exact holding.elim

/-- In a quiet state everything that was published has been popped. -/
theorem WakingConfig.Awake.drained (awake : config.Awake) (quiet : config.Quiet) {p : UInt64}
    (published : p ∈ config.memory.ring.published) :
    p ∈ config.memory.ring.popped.map Prod.fst := by
  have consistent := awake.holds.1
  have asserts : Host.Asserts config.memory .idle := quiet.outside ▸ awake.holds.2 .host
  obtain ⟨released, popped⟩ : TryPop.Settled config.memory.ring := asserts
  by_contra unpopped
  have later := consistent.unpopped unpopped
  have front : config.memory.ring.queue.dequeuePosition ∈ config.memory.ring.published := by
    refine awake.published_of_lt quiet.announced ?_
    rw [← popped]
    exact later.trans_lt (consistent.publishedWon p published)
  cases pending : config.memory.pending with
  | false =>
      rcases awake.frontSeen pending front with looking | ⟨i, announces⟩
      · rw [quiet.outside] at looking
        exact looking
      · have still := quiet.announced i
        rw [announces] at still
        cases still
  | true =>
      obtain ⟨-, holder, held, set⟩ := awake.token
      rw [pending] at set
      obtain ⟨h, rfl⟩ := Option.isSome_iff_exists.1 set
      have owes := (held h).2 rfl
      cases h with
      | wakeUp => exact owes quiet.delivered
      | producer i =>
          have still := quiet.announced i
          rw [show config.producer i = .signal from owes] at still
          cases still
      | host =>
          rw [WakingConfig.Owes, quiet.outside] at owes
          exact owes

namespace OnceRound

/-- The first `d` positions are popped and the next `k` published. -/
structure Turned (d k : Nat) (run : ProbeQueueRun Bool NativeProbeEvent) : Prop where
  enqueue : run.queue.enqueuePosition = .ofNat (d + k)
  dequeue : run.queue.dequeuePosition = .ofNat d
  slots : ∀ j < 8192, (run.slot (.ofNat (d + j))).sequence =
    if j < k then .ofNat (d + j + 1) else .ofNat (d + j)
  published : ∀ m < d + k, UInt64.ofNat m ∈ run.published
  popped : ∀ x ∈ run.popped, x.1.toNat < d

theorem slotIndex_ofNat {a b : Nat} :
    slotIndex (.ofNat a) = slotIndex (.ofNat b) ↔ a % 8192 = b % 8192 := by
  rw [slotIndex_eq_iff, UInt64.toNat_ofNat', UInt64.toNat_ofNat',
    Nat.mod_mod_of_dvd _ (by decide), Nat.mod_mod_of_dvd _ (by decide)]

theorem ofNat_succ (n : Nat) : UInt64.ofNat n + 1 = .ofNat (n + 1) := (UInt64.ofNat_add n 1).symm

variable {run : ProbeQueueRun Bool NativeProbeEvent} {d k : Nat}

def afterPush (run : ProbeQueueRun Bool NativeProbeEvent) (producer : Bool) (position : UInt64) :
    ProbeQueueRun Bool NativeProbeEvent :=
  ((run.reserve producer position {}).write position {}).publish position

theorem Turned.push (turned : Turned d k run) (room : k < 8192) :
    Turned d (k + 1) (afterPush run true (.ofNat (d + k))) := by
  refine ⟨ofNat_succ _, turned.dequeue, fun j low => ?_, fun m below => ?_, turned.popped⟩
  · rw [afterPush, ProbeQueueRun.slot_publish]
    by_cases same : j = k
    · subst same
      rw [if_pos rfl, if_pos (Nat.lt_succ_self j)]
      exact ofNat_succ _
    · have apart : slotIndex (.ofNat (d + j)) ≠ slotIndex (.ofNat (d + k)) := by
        rw [ne_eq, slotIndex_ofNat]
        omega
      rw [if_neg apart, ProbeQueueRun.slot_write, if_neg apart]
      refine (turned.slots j low).trans (if_congr ?_ rfl rfl)
      omega
  · rcases Nat.lt_succ_iff_lt_or_eq.1 below with old | rfl
    · exact List.mem_append_left _ (turned.published m old)
    · exact List.mem_append_right _ (List.mem_singleton_self _)

def afterPop (run : ProbeQueueRun Bool NativeProbeEvent) (position : UInt64) :
    ProbeQueueRun Bool NativeProbeEvent :=
  ((run.read position).release position).advance position

theorem Turned.pop (turned : Turned d 1 run) : Turned (d + 1) 0 (afterPop run (.ofNat d)) := by
  refine ⟨turned.enqueue, ofNat_succ d, fun j low => ?_, turned.published, fun x member => ?_⟩
  · rw [if_neg (Nat.not_lt_zero j)]
    show (((run.read _).release _).slot _).sequence = _
    rw [ProbeQueueRun.slot_release]
    by_cases last : j = 8191
    · subst last
      rw [if_pos (slotIndex_ofNat.2 (by omega))]
      exact (UInt64.ofNat_add d 8192).symm.trans (congrArg UInt64.ofNat (by omega))
    · rw [if_neg (by rw [slotIndex_ofNat]; omega)]
      have carried := turned.slots (j + 1) (by omega)
      rw [if_neg (by omega)] at carried
      rw [show d + 1 + j = d + (j + 1) by omega]
      exact carried
  · rcases List.mem_append.1 member with old | new
    · exact (turned.popped x old).trans (Nat.lt_succ_self d)
    · rw [List.mem_singleton.1 new]
      exact Nat.lt_succ_of_le ((UInt64.toNat_ofNat').trans_le (Nat.mod_le _ _))

def standing (stalled : Announcing) (memory : WakingMemory Bool) (pc : Announcing) (host : Host) :
    WakingConfig Bool where
  memory := memory
  locals
    | .producer true => pc
    | .producer false => stalled
    | .host => host

abbrev Runs (config config' : WakingConfig Bool) : Prop := Reachable wakingMachine.access config config'

variable {memory memory' : WakingMemory Bool} {stalled stalled' pc pc' : Announcing}
  {host host' : Host}

theorem pushes (moves : announce true {} false memory pc = (memory', pc')) :
    Runs (standing stalled memory pc host) (standing stalled memory' pc' host) := by
  refine .single ⟨.producer true, ⟨{ event := {} }, moves⟩, fun thread other => ?_⟩
  cases thread with
  | producer i =>
      cases i with
      | true => exact absurd rfl other
      | false => rfl
  | host => rfl

theorem hosts (moves : drain (fun _ => none) memory host = (memory', host')) :
    Runs (standing stalled memory pc host) (standing stalled memory' pc host') := by
  refine .single ⟨.host, ⟨{ event := {} }, moves⟩, fun thread other => ?_⟩
  cases thread with
  | producer i => cases i <;> rfl
  | host => exact absurd rfl other

/-- A push that finds room, and its announcement. -/
theorem push_one (stalled : Announcing) (turned : Turned d k memory.ring) (room : k < 8192) :
    ∃ memory', Turned d (k + 1) memory'.ring ∧ memory'.pending = true ∧
      memory'.undelivered = memory.undelivered + (if memory.pending then 0 else 1) ∧
      Runs (standing stalled memory (.push .idle) host) (standing stalled memory' (.push .idle) host) := by
  let weight := nativeProbeDropWeight {}
  let position := UInt64.ofNat (d + k)
  have turn : (memory.ring.slot position).sequence = position := by
    have := turned.slots k room
    rwa [if_neg (lt_irrefl k)] at this
  have calls : Runs (standing stalled memory (.push .idle) host)
      (standing stalled memory (.push (.loadPosition {} weight)) host) := pushes rfl
  have loads : Runs (standing stalled memory (.push (.loadPosition {} weight)) host)
      (standing stalled memory (.push (.loadSequence {} weight position)) host) := by
    refine pushes ?_
    rw [show position = memory.ring.queue.enqueuePosition from turned.enqueue.symm]
    rfl
  have finds : Runs (standing stalled memory (.push (.loadSequence {} weight position)) host)
      (standing stalled memory (.push (.exchangePosition {} weight position)) host) := by
    refine pushes ?_
    have zero : ((memory.host.ring.slot position).sequence - position).toInt64 = 0 :=
      toInt64_sub_eq_zero.2 turn
    simp only [announce, emitEvent, TryPush.access, zero, if_true]
  let won : WakingMemory Bool :=
    { memory with host := { memory.host with ring := memory.ring.reserve true position {} } }
  have wins : Runs (standing stalled memory (.push (.exchangePosition {} weight position)) host)
      (standing stalled won (.push (.writeEvent {} position)) host) := by
    refine pushes ?_
    have enqueue : memory.host.ring.queue.enqueuePosition = position := turned.enqueue
    simp only [announce, emitEvent, TryPush.access, enqueue, and_self, if_true]
    rfl
  let published : WakingMemory Bool :=
    { memory with host := { memory.host with ring := afterPush memory.ring true position } }
  have writes : Runs (standing stalled won (.push (.writeEvent {} position)) host)
      (standing stalled published (.push (.returned true)) host) := (pushes rfl).trans (pushes rfl)
  have steps := calls.trans (loads.trans (finds.trans (wins.trans writes)))
  let marked : WakingMemory Bool :=
    { published with host := { published.host with notificationPending := true } }
  cases pending : memory.pending with
  | true =>
      refine ⟨marked, turned.push room, rfl, rfl, steps.trans (pushes ?_)⟩
      rw [announce, show published.pending = true from pending]
      rfl
  | false =>
      have sends : Runs (standing stalled published (.push (.returned true)) host)
          (standing stalled marked .signal host) := by
        refine pushes ?_
        rw [announce, show published.pending = false from pending]
        rfl
      exact ⟨{ marked with undelivered := memory.undelivered + 1 }, turned.push room, rfl, rfl,
        steps.trans (sends.trans (pushes rfl))⟩

/-- With nothing to pop at the front, Drain clears the flag and leaves. -/
theorem leaves (memory : WakingMemory Bool) (pc : Announcing) (turn : DrainTurn)
    {position : UInt64} (calls : turn.disabling = false)
    (front : memory.ring.queue.dequeuePosition = position)
    (unpublished : (memory.ring.slot position).sequence ≠ position + 1) :
    ∃ memory', memory'.ring = memory.ring ∧ memory'.pending = false ∧
      memory'.undelivered = memory.undelivered ∧
      Runs (standing stalled memory pc (.tryPop turn .loadPosition)) (standing stalled memory' pc .idle) := by
  have loads : Runs (standing stalled memory pc (.tryPop turn .loadPosition))
      (standing stalled memory pc (.tryPop turn (.loadSequence position))) := by
    refine hosts ?_
    rw [← front]
    rfl
  have finds : Runs (standing stalled memory pc (.tryPop turn (.loadSequence position)))
      (standing stalled memory pc (.droppedCount turn)) := by
    have apart : ((memory.host.ring.slot position).sequence - (position + 1)).toInt64 ≠ 0 :=
      fun zero => unpublished (toInt64_sub_eq_zero.1 zero)
    have empties : Runs (standing stalled memory pc (.tryPop turn (.loadSequence position)))
        (standing stalled memory pc (.tryPop turn (.returned none))) := by
      refine hosts ?_
      simp only [drain, Host.access, TryPop.access, if_pos apart]
    exact empties.trans (hosts rfl)
  let host := Host.report memory.host turn
  have ring : host.ring = memory.ring := by
    show (Host.report memory.host turn).ring = memory.host.ring
    rw [Host.report]
    split <;> rfl
  let read := { turn with
    unreported := decide (memory.host.ring.queue.dropped > memory.host.reportedDroppedEvents) }
  let cleared : WakingMemory Bool := { memory with host := { host with notificationPending := false } }
  have clears : Runs (standing stalled memory pc (.droppedCount turn))
      (standing stalled cleared pc (.emptySequence read position)) := by
    have reports : Runs (standing stalled memory pc (.droppedCount turn))
        (standing stalled { memory with host } pc (.clearNotification read)) := hosts rfl
    have clears : Runs (standing stalled { memory with host } pc (.clearNotification read))
        (standing stalled cleared pc (.emptyPosition read)) := hosts rfl
    refine reports.trans (clears.trans (hosts ?_))
    rw [← front, ← ring]
    rfl
  have leaves : Runs (standing stalled cleared pc (.emptySequence read position))
      (standing stalled cleared pc .idle) := by
    refine hosts ?_
    have empty : ((cleared.host.ring.slot position).sequence != position + 1) = true := by
      rw [show cleared.host.ring = memory.ring from ring]
      exact bne_iff_ne.2 unpublished
    simp only [drain, Host.access, empty, if_true, Host.leave]
    rw [show read.disabling = false from calls]
    rfl
  exact ⟨cleared, ring, rfl, rfl, loads.trans (finds.trans (clears.trans leaves))⟩

/-- A wake-up is delivered, and Drain pops the one event there is. -/
theorem drain_one (stalled : Announcing) (turned : Turned d 1 memory.ring) (sent : memory.undelivered = 1) :
    ∃ memory', Turned (d + 1) 0 memory'.ring ∧ memory'.pending = false ∧
      memory'.undelivered = 0 ∧
      Runs (standing stalled memory pc .idle) (standing stalled memory' pc .idle) := by
  let position := UInt64.ofNat d
  let turn : DrainTurn := { disabling := false, frameTabs := fun _ => none }
  let event := (memory.ring.slot position).event
  let woken : WakingMemory Bool := { memory with undelivered := 0 }
  let turned' : DrainTurn := { turn with lastEvent := tabbed (fun _ => none) event, drainedEvent := true }
  let emptied : WakingMemory Bool :=
    { woken with host := { memory.host with
        ring := afterPop memory.ring position
        emitted := memory.host.emitted ++ [.event (tabbed (fun _ => none) event)] } }
  have wakes : Runs (standing stalled memory pc .idle) (standing stalled woken pc (.tryPop turn .loadPosition)) := by
    refine hosts ?_
    rw [drain, if_neg (by omega), sent]
    rfl
  have loads : Runs (standing stalled woken pc (.tryPop turn .loadPosition))
      (standing stalled woken pc (.tryPop turn (.loadSequence position))) := by
    refine hosts ?_
    rw [show position = memory.ring.queue.dequeuePosition from turned.dequeue.symm]
    rfl
  have finds : Runs (standing stalled woken pc (.tryPop turn (.loadSequence position)))
      (standing stalled woken pc (.tryPop turn (.readEvent position))) := by
    refine hosts ?_
    have published : (memory.host.ring.slot position).sequence = position + 1 :=
      (turned.slots 0 (by decide)).trans (ofNat_succ d).symm
    have zero : ¬ ((memory.host.ring.slot position).sequence - (position + 1)).toInt64 ≠ 0 :=
      not_not.2 (toInt64_sub_eq_zero.2 published)
    simp only [drain, Host.access, TryPop.access, woken, if_neg zero]
  have pops : Runs (standing stalled woken pc (.tryPop turn (.readEvent position)))
      (standing stalled emptied pc (.tryPop turned' .loadPosition)) :=
    .trans (hosts rfl) (.trans (hosts rfl) (.trans (hosts rfl) (hosts rfl)))
  have after : Turned (d + 1) 0 emptied.ring := turned.pop
  obtain ⟨memory', ring, pending, undelivered, leaves⟩ :=
    leaves emptied pc turned' rfl after.dequeue (by
      have unpublished := after.slots 0 (by decide)
      rw [if_neg (Nat.not_lt_zero 0)] at unpublished
      rw [show (emptied.ring.slot (.ofNat (d + 1))).sequence = .ofNat (d + 1) from unpublished]
      exact (succ_ne_self _).symm)
  exact ⟨memory', ring ▸ after, pending, undelivered,
    wakes.trans (loads.trans (finds.trans (pops.trans leaves)))⟩

theorem quietStart_turned : Turned 0 0 (quietStart Bool).memory.ring := by
  refine ⟨rfl, rfl, fun j low => ?_, fun m below => absurd below (Nat.not_lt_zero m),
    fun x member => absurd member List.not_mem_nil⟩
  have fresh : (quietStart Bool).memory.ring.Consistent := ProbeQueueRun.Consistent.new
  have index : (UInt64.ofNat (0 + j)).toNat = j := by
    rw [Nat.zero_add]
    exact UInt64.toNat_ofNat_of_lt' (show j < 2 ^ 64 by omega)
  have carried := fresh.sequences (.ofNat (0 + j)) ⟨Nat.zero_le _, by
    show (UInt64.ofNat (0 + j)).toNat < 0 + 8192
    omega⟩
  rw [if_neg (Nat.not_lt_zero j)]
  exact carried

/-- Any number of pushes, each drained before the next. -/
theorem rounds (stalled : Announcing) (d : Nat) :
    ∃ memory, Turned d 0 memory.ring ∧ memory.pending = false ∧ memory.undelivered = 0 ∧
      Runs (standing stalled (quietStart Bool).memory (.push .idle) .idle)
        (standing stalled memory (.push .idle) .idle) := by
  induction d with
  | zero => exact ⟨_, quietStart_turned, rfl, rfl, .refl⟩
  | succ d ih =>
      obtain ⟨memory, turned, clear, none, run⟩ := ih
      obtain ⟨filled, one, set, sent, pushed⟩ := push_one stalled turned (by decide)
      rw [clear, none] at sent
      obtain ⟨memory', turned', clear', none', drained⟩ := drain_one stalled one sent
      exact ⟨memory', turned', clear', none', run.trans (pushed.trans drained)⟩

/-- Pushes with no Drain between them send one wake-up. -/
theorem fills (stalled : Announcing) (host : Host) (turned : Turned d 0 memory.ring) (clear : memory.pending = false)
    (none : memory.undelivered = 0) (k : Nat) (room : k < 8192) :
    ∃ memory', Turned d (k + 1) memory'.ring ∧ memory'.pending = true ∧ memory'.undelivered = 1 ∧
      Runs (standing stalled memory (.push .idle) host)
        (standing stalled memory' (.push .idle) host) := by
  induction k with
  | zero =>
      obtain ⟨memory', one, set, sent, run⟩ := push_one stalled turned room
      rw [clear, none] at sent
      exact ⟨memory', one, set, sent, run⟩
  | succ k ih =>
      obtain ⟨filled, more, set, sent, run⟩ := ih (by omega)
      obtain ⟨memory', most, set', sent', pushed⟩ := push_one stalled more room
      rw [set, sent] at sent'
      exact ⟨memory', most, set', sent', run.trans pushed⟩

end OnceRound

end Reb.Probe
