/-
# Debugger.BelievedReplies -- any sequence of believed replies makes a coherent trace

`Believed spec views` lists the views a helper can get validated, one after the
other, whatever it sends in between; `Trace.ofViews` is what the run keeps of them.
The validator relates each reply to the trace before it only, so coherence is an
induction over the replies: `Believed.coherent`.
-/
import Reb.Debugger.NativeReply

namespace Reb.Debugger

set_option autoImplicit false

theorem checkedAdd_eq_some {a b c : UInt64} :
    checkedAdd a b = some c ↔ c.toNat = a.toNat + b.toNat := by
  have := c.toNat_lt
  rw [checkedAdd, Option.ite_none_right_eq_some, Option.some.injEq, ← UInt64.toNat_inj,
    UInt64.toNat_add]
  constructor
  · rintro ⟨fits, sum⟩
    rw [← sum, Nat.mod_eq_of_lt fits]
  · intro sum
    exact ⟨by omega, by rw [← sum, Nat.mod_eq_of_lt c.toNat_lt]⟩

theorem checkedAdd_eq_none {a b : UInt64} : checkedAdd a b = none ↔ 2 ^ 64 ≤ a.toNat + b.toNat := by
  rw [checkedAdd]
  split <;> simp <;> omega

/-! ## What the validator's tests say -/

/-- The shape that the fixture has after `count` instructions. -/
structure Snapshot.At (s : Snapshot) (fixture : Fixture) (count : UInt64) : Prop where
  pc : s.pc = pcs.getD count.toNat 0
  stack : s.stack.length = Snapshot.stackAt fixture count
  memory : s.memory.length = Snapshot.memoryAt count

/-- The counters of a validated view, among themselves and against its snapshot. -/
structure NativeView.Counted (v : NativeView) (spec : SpawnSpec) : Prop where
  retained : v.retainedCount = v.stats.recorded
  recorded : v.stats.recorded ≤ v.executedCount
  executed : v.executedCount ≤ 9
  snapshot : v.snapshot.At spec.fixture v.executedCount

/-- A record delivered between two snapshots is a step from the one to the other. -/
def NativeView.Delivers (before after : NativeView) : Prop :=
  ∀ record, after.transition = some record →
    record.before = before.snapshot ∧ record.after = after.snapshot

def Record.Precedes (a b : Record) : Prop := a.sequence < b.sequence ∧ a.tick ≤ b.tick

theorem Record.Precedes.trans {a b c : Record} (ab : a.Precedes b) (bc : b.Precedes c) :
    a.Precedes c :=
  ⟨UInt64.lt_trans ab.1 bc.1, UInt64.le_trans ab.2 bc.2⟩

namespace NativeView

theorem counted {v : NativeView} {spec : SpawnSpec} (ok : v.consistent spec = true) :
    v.Counted spec := by
  simp only [consistent, Snapshot.validAt, Bool.and_eq_true, beq_iff_eq, decide_eq_true_eq] at ok
  obtain ⟨⟨⟨⟨⟨⟨⟨⟨⟨⟨⟨⟨⟨⟨⟨⟨⟨⟨-, fixture⟩, -⟩, -⟩, -⟩, -⟩, -⟩, -⟩, -⟩, ⟨⟨-, stack⟩, memory⟩, -⟩,
    executed⟩, -⟩, retained⟩, recorded⟩, -⟩, -⟩, -⟩, pc⟩, -⟩ := ok
  exact ⟨retained, recorded, executed, pc, fixture ▸ stack, memory⟩

theorem initial_start {v : NativeView} {status : UInt16} (ok : v.initial status = true) :
    v.executedCount = 0 ∧ v.retainedCount = 0 ∧ v.transition = none := by
  simp only [NativeView.initial, Bool.and_eq_true, beq_iff_eq, Option.isNone_iff_eq_none] at ok
  obtain ⟨⟨⟨⟨⟨⟨-, executed⟩, retained⟩, transition⟩, -⟩, -⟩, -⟩ := ok
  exact ⟨executed, retained, transition⟩

theorem executed_next {v : NativeView} {old : Trace} (ok : v.executed old = true) :
    v.executedCount.toNat = old.executedCount.toNat + 1 := by
  simp only [executed, Bool.and_eq_true, beq_iff_eq] at ok
  exact checkedAdd_eq_some.1 ok.1.1.1

/-- Either a record extends the trace, or the trace keeps its length. -/
theorem executed_record {v : NativeView} {old : Trace} (ok : v.executed old = true) :
    (∃ record, v.transition = some record ∧ v.continues record old = true)
      ∨ (v.transition = none ∧ v.retainedCount = old.retainedCount) := by
  simp only [executed, Bool.and_eq_true] at ok
  cases result : v.recorderResult with
  | none => simp [result] at ok
  | some outcome =>
      cases delivered : v.transition with
      | none =>
          simp only [result, delivered, Bool.and_eq_true, beq_iff_eq] at ok
          exact .inr ⟨rfl, ok.2.2.2⟩
      | some record =>
          simp only [result, delivered, Bool.and_eq_true] at ok
          exact .inl ⟨record, rfl, ok.2.2.2⟩

/-- What `continues` checks of the place a record takes. -/
theorem continues_place {v : NativeView} {record : Record} {old : Trace}
    (ok : v.continues record old = true) :
    old.records.length < 64 ∧ record.after = v.snapshot ∧ old.currentSnapshot = some record.before
      ∧ v.retainedCount = old.retainedCount + 1
      ∧ ∀ last ∈ old.records.getLast?, last.Precedes record := by
  simp only [continues, Bool.and_eq_true, beq_iff_eq, decide_eq_true_eq, Bool.not_eq_true'] at ok
  obtain ⟨⟨⟨⟨⟨⟨⟨-, room⟩, after⟩, before⟩, -⟩, retained⟩, -⟩, order⟩ := ok
  refine ⟨room, after, before, retained, fun last found => ?_⟩
  rw [Option.mem_def.1 found] at order
  simpa [Record.Precedes] using order

end NativeView

/-! ## Sequences of believed replies -/

def Trace.ofViews (views : List NativeView) : Trace := views.foldl Trace.store {}

theorem Trace.ofViews_snoc (views : List NativeView) (v : NativeView) :
    Trace.ofViews (views ++ [v]) = (Trace.ofViews views).store v := by
  simp [Trace.ofViews, List.foldl_append]

/-- The views of the replies that were validated with status 0, in their order. -/
inductive Believed (spec : SpawnSpec) : List NativeView → Prop where
  | start : Believed spec []
  | next {views : List NativeView} {v : NativeView} (earlier : Believed spec views)
      (ok : validateNative spec (.ofViews views) ⟨0, v⟩
        (Trace.ofViews views).initialSnapshot.isNone = .ok ()) :
      Believed spec (views ++ [v])

theorem validateNative_ok {spec : SpawnSpec} {old : Trace} {reply : NativeReply} {initial : Bool} :
    validateNative spec old reply initial = .ok () ↔ reply.believed spec old initial = true := by
  rw [validateNative]
  split <;> simp [*]

theorem initialSnapshot_isNone (views : List NativeView) :
    (Trace.ofViews views).initialSnapshot.isNone = views.isEmpty := by
  induction views using List.reverseRecOn with
  | nil => rfl
  | append_singleton views v ih =>
      rw [Trace.ofViews_snoc, Trace.store]
      split
      · simp
      · rename_i begun
        simp [begun]

/-- What the run keeps of a sequence of believed replies. -/
structure Trace.Coherent (t : Trace) (spec : SpawnSpec) (views : List NativeView) : Prop where
  counted : t.executedCount.toNat + 1 = views.length
  bounded : t.executedCount ≤ 9
  recorded : t.stats.recorded ≤ t.executedCount
  retained : t.retainedCount = t.stats.recorded
  records : t.records.length = t.retainedCount.toNat
  delivered : t.records = views.filterMap (·.transition)
  between : views.IsChain NativeView.Delivers
  ordered : t.records.Pairwise Record.Precedes
  initial : t.initialSnapshot = views.head?.map (·.snapshot)
  current : t.currentSnapshot = views.getLast?.map (·.snapshot)
  shape : ∀ snapshot, t.currentSnapshot = some snapshot → snapshot.At spec.fixture t.executedCount

namespace Believed

variable {spec : SpawnSpec} {views : List NativeView}

/-- The first believed reply starts a coherent trace. -/
theorem coherent_first {v : NativeView} (counted : v.Counted spec)
    (first : v.executedCount = 0 ∧ v.retainedCount = 0 ∧ v.transition = none) :
    (Trace.ofViews [v]).Coherent spec [v] := by
  obtain ⟨executed, retained, transition⟩ := first
  have kept : Trace.ofViews [v] = Trace.store {} v := rfl
  have empty : (Trace.store {} v).records = [] := by simp [Trace.store, transition]
  rw [kept]
  refine ⟨?_, counted.executed, counted.recorded, counted.retained, ?_, ?_, List.isChain_singleton v,
    ?_, rfl, rfl, ?_⟩
  · exact congrArg (·.toNat + 1) executed
  · rw [empty]
    exact congrArg UInt64.toNat retained.symm
  · simp [empty, transition]
  · rw [empty]
    exact List.Pairwise.nil
  · rintro _ ⟨⟩
    exact counted.snapshot

theorem pairwise_snoc {records : List Record} {record : Record}
    (ordered : records.Pairwise Record.Precedes)
    (last : ∀ r ∈ records.getLast?, r.Precedes record) :
    (records ++ [record]).Pairwise Record.Precedes := by
  refine List.pairwise_append.2 ⟨ordered, List.pairwise_singleton .., ?_⟩
  intro r member b same
  rw [List.mem_singleton.1 same]
  -- The last record is compared with the new one, and it follows every other record.
  rcases List.eq_nil_or_concat records with rfl | ⟨front, final, rfl⟩
  · simp at member
  · rw [List.concat_eq_append] at *
    have reached : final.Precedes record := last final (by simp)
    rcases List.mem_append.1 member with earlier | same
    · exact ((List.pairwise_append.1 ordered).2.2 r earlier final (by simp)).trans reached
    · rwa [List.mem_singleton.1 same]

/-- Every later believed reply keeps the trace coherent. -/
theorem coherent_next {v : NativeView} (coherent : (Trace.ofViews views).Coherent spec views)
    (counted : v.Counted spec) (executed : v.executed (.ofViews views) = true) :
    (Trace.ofViews (views ++ [v])).Coherent spec (views ++ [v]) := by
  have next := NativeView.executed_next executed
  rw [Trace.ofViews_snoc]
  generalize known : Trace.ofViews views = old at *
  have nonempty : views ≠ [] := by
    rintro rfl
    have := coherent.counted
    simp at this
  have begun : old.initialSnapshot = views.head?.map (·.snapshot) := coherent.initial
  have last : old.currentSnapshot = views.getLast?.map (·.snapshot) := coherent.current
  have carried : (old.store v).records.length = v.retainedCount.toNat
      ∧ (views ++ [v]).IsChain NativeView.Delivers
      ∧ (old.store v).records.Pairwise Record.Precedes := by
    have chained (delivers : ∀ w ∈ views.getLast?, w.Delivers v) :
        (views ++ [v]).IsChain NativeView.Delivers := by
      refine List.isChain_append.2 ⟨coherent.between, List.isChain_singleton v, ?_⟩
      intro w final u single
      cases single
      exact delivers w final
    rcases NativeView.executed_record executed with ⟨record, transition, continues⟩ | ⟨transition, same⟩
    · obtain ⟨room, after, before, retained, order⟩ := NativeView.continues_place continues
      simp only [Trace.store, transition, Option.toList_some]
      refine ⟨?_, chained ?_, pairwise_snoc coherent.ordered order⟩
      · have fits := coherent.records
        rw [List.length_append, coherent.records, retained, UInt64.toNat_add, UInt64.toNat_one,
          List.length_singleton, Nat.mod_eq_of_lt (by omega)]
      · intro w final r given
        rw [transition, Option.some.injEq] at given
        subst given
        rw [last, Option.mem_def.1 final, Option.map_some, Option.some.injEq] at before
        exact ⟨before.symm, after⟩
    · simp only [Trace.store, transition, Option.toList_none, List.append_nil]
      refine ⟨by rw [coherent.records, same], chained ?_, coherent.ordered⟩
      intro w _ r given
      rw [transition] at given
      cases given
  obtain ⟨length, between, ordered⟩ := carried
  refine ⟨?_, counted.executed, counted.recorded, counted.retained, length, ?_, between, ordered,
    ?_, ?_, ?_⟩
  · rw [List.length_append, List.length_singleton, ← coherent.counted]
    exact congrArg (· + 1) next
  · rw [Trace.store, List.filterMap_append, ← coherent.delivered]
    cases delivered : v.transition <;> simp [delivered]
  · obtain ⟨w, rest, rfl⟩ := List.exists_cons_of_ne_nil nonempty
    rw [Trace.store, begun]
    rfl
  · rw [List.getLast?_concat]
    rfl
  · rintro _ ⟨⟩
    exact counted.snapshot

/-- The run's trace is coherent from the first believed reply on. -/
theorem coherent (believed : Believed spec views) (replied : views ≠ []) :
    (Trace.ofViews views).Coherent spec views := by
  induction believed with
  | start => exact absurd rfl replied
  | @next views v earlier ok ih =>
      obtain ⟨consistent, case⟩ := Bool.and_eq_true_iff.1 (validateNative_ok.1 ok)
      have counted := NativeView.counted consistent
      rw [initialSnapshot_isNone] at case
      by_cases first : views = []
      · subst first
        exact coherent_first counted (NativeView.initial_start case)
      · rw [List.isEmpty_eq_false_iff.2 first] at case
        exact coherent_next (ih first) counted case

/-- A helper gets at most ten replies believed: the initial one and nine more. -/
theorem length_le (believed : Believed spec views) : views.length ≤ 10 := by
  by_cases replied : views = []
  · simp [replied]
  · have coherent := believed.coherent replied
    have := UInt64.le_iff_toNat_le.1 coherent.bounded
    have nine : (9 : UInt64).toNat = 9 := rfl
    have := coherent.counted
    omega

end Believed

end Reb.Debugger
