/-
# Theory.Machine -- runs of a machine, and the journals it keeps

A machine is a partial step function; `play` runs a list of inputs through it.
What every step keeps, every run keeps (`play_keeps`), and what every step
relates by a preorder, every run relates (`play_relates`).  `guarded` admits only
the inputs that meet a condition in the state they meet it.

A journal is a log that only grows.  An entry is judged by the entries before it:
`Lawful` says every entry obeyed the law when it was written.
-/
import Mathlib

namespace Reb.Theory.Machine

set_option autoImplicit false

section Runs

variable {State Input : Type*} (step : State → Input → Option State)

def play : State → List Input → Option State
  | s, [] => some s
  | s, i :: rest => (step s i).bind fun s' => play s' rest

/-- The machine that stops at the first input that does not meet the condition. -/
def guarded (meets : State → Input → Bool) (s : State) (i : Input) : Option State :=
  if meets s i then step s i else none

variable {step}

theorem play_cons_eq_some {s s' : State} {i : Input} {rest : List Input} :
    play step s (i :: rest) = some s' ↔ ∃ m, step s i = some m ∧ play step m rest = some s' := by
  rw [play, Option.bind_eq_some_iff]

theorem guarded_eq_some {meets : State → Input → Bool} {s s' : State} {i : Input} :
    guarded step meets s i = some s' ↔ meets s i = true ∧ step s i = some s' := by
  rw [guarded, Option.ite_none_right_eq_some]

/-- A run passes through every step it is made of. -/
theorem play_split {s s' : State} {past rest : List Input} {i : Input}
    (run : play step s (past ++ i :: rest) = some s') :
    ∃ m m', play step s past = some m ∧ step m i = some m' := by
  induction past generalizing s with
  | nil =>
      obtain ⟨m', first, -⟩ := play_cons_eq_some.1 run
      exact ⟨s, m', rfl, first⟩
  | cons j past ih =>
      obtain ⟨w, first, others⟩ := play_cons_eq_some.1 run
      obtain ⟨m, m', reaches, next⟩ := ih others
      exact ⟨m, m', play_cons_eq_some.2 ⟨w, first, reaches⟩, next⟩

/-- What every step relates to its start, under an invariant, every run does. -/
theorem play_relates {invariant : State → Prop} {related : State → State → Prop}
    (keeps : ∀ {s i s'}, step s i = some s' → invariant s → invariant s')
    (refl : ∀ s, related s s)
    (trans : ∀ {s m s'}, related s m → related m s' → related s s')
    (steps : ∀ {s i s'}, step s i = some s' → invariant s → related s s')
    {s s' : State} {inputs : List Input} (run : play step s inputs = some s') (start : invariant s) :
    invariant s' ∧ related s s' := by
  induction inputs generalizing s with
  | nil =>
      cases run
      exact ⟨start, refl _⟩
  | cons i rest ih =>
      obtain ⟨m, first, others⟩ := play_cons_eq_some.1 run
      obtain ⟨kept, later⟩ := ih others (keeps first start)
      exact ⟨kept, trans (steps first start) later⟩

theorem play_keeps {invariant : State → Prop}
    (keeps : ∀ {s i s'}, step s i = some s' → invariant s → invariant s')
    {s s' : State} {inputs : List Input} (run : play step s inputs = some s') (start : invariant s) :
    invariant s' :=
  (@play_relates _ _ _ invariant (fun _ _ => True) keeps (fun _ => trivial) (fun _ _ => trivial)
    (fun _ => fun _ => trivial) _ _ _ run start).1

theorem play_of_guarded {meets : State → Input → Bool} {s s' : State} {inputs : List Input}
    (run : play (guarded step meets) s inputs = some s') : play step s inputs = some s' := by
  induction inputs generalizing s with
  | nil => exact run
  | cons i rest ih =>
      obtain ⟨m, first, others⟩ := play_cons_eq_some.1 run
      exact play_cons_eq_some.2 ⟨m, (guarded_eq_some.1 first).2, ih others⟩

end Runs

section Journals

variable {Entry : Type*} {law : List Entry → Entry → Prop}

/-- Every entry obeys the law, judged by the entries before it. -/
def Lawful (law : List Entry → Entry → Prop) (log : List Entry) : Prop :=
  ∀ past entry rest, log = past ++ entry :: rest → law past entry

theorem lawful_nil : Lawful law [] := by
  intro past entry rest split
  simp at split

theorem Lawful.snoc {log : List Entry} {entry : Entry} (lawful : Lawful law log)
    (obeys : law log entry) : Lawful law (log ++ [entry]) := by
  intro past e rest split
  rcases List.eq_nil_or_concat rest with rfl | ⟨shorter, last, rfl⟩
  · obtain ⟨rfl, same⟩ := List.append_inj' split rfl
    cases same
    exact obeys
  · rw [List.concat_eq_append, ← List.cons_append, ← List.append_assoc] at split
    exact lawful past e shorter (List.append_inj' split rfl).1

theorem Lawful.before {past rest : List Entry} (lawful : Lawful law (past ++ rest)) :
    Lawful law past := by
  intro earlier entry later split
  exact lawful earlier entry (later ++ rest) (by rw [split]; simp)

/-- What is opened only when closed and closed only when open has been opened at most
once more than it has been closed. -/
theorem Lawful.balanced (opens closes : Entry → Bool) (isOpen : List Entry → Bool)
    (start : isOpen [] = false)
    (next : ∀ past entry, isOpen (past ++ [entry])
      = if opens entry then true else if closes entry then false else isOpen past)
    (opening : ∀ past entry, law past entry → opens entry = true → isOpen past = false)
    (closing : ∀ past entry, law past entry → closes entry = true →
      isOpen past = true ∧ opens entry = false)
    {log : List Entry} (lawful : Lawful law log) :
    log.countP opens = log.countP closes + (isOpen log).toNat := by
  induction log using List.reverseRecOn with
  | nil => simp [start]
  | append_singleton past entry ih =>
      have before := ih lawful.before
      have obeys := lawful past entry [] rfl
      rw [List.countP_append, List.countP_append, List.countP_singleton, List.countP_singleton, next]
      by_cases opened : opens entry = true
      · have shut := opening past entry obeys opened
        have other : closes entry = false := by
          rw [← Bool.not_eq_true]
          intro closed
          rw [(closing past entry obeys closed).2] at opened
          cases opened
        simp [before, shut, opened, other]
      · by_cases closed : closes entry = true
        · simp [before, (closing past entry obeys closed).1, opened, closed]
        · simp [before, opened, closed]

end Journals

end Reb.Theory.Machine
