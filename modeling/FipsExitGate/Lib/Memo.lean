import Mathlib.Logic.Function.Basic

/-!
# A memo that is keyed by a version

A store changes while readers ask for a value that is costly to read.  The store has a version,
and a memo of one entry keeps the value last read with the version it was read at.  A reader
looks up the version, compares the memo with it, and on a miss reads both from one snapshot,
enters them and returns them.  Each of these is a step of its own, and any number of readers are
at any of them.

The memo may be overwritten by a reader whose snapshot is older than the entry.  That does no
harm: an entry is right about its own version (`Vouched`), whenever it was made.  What this needs
is that the version determines the value, for the states that were ever committed (`Determined`).

## Main definitions

* `Source` — the version of a state, and what a reading of it gives
* `step` — the store and the readers
* `Determined` — committed states with one version have one value

## Main results

* `sound_step` — every entry, and every answer, is that of a committed state
* `Sound.answer_right` — an answer is the value of every committed state that has its version
-/

namespace Memo

universe u

/-- A state's version, and the value that a reading gives; `ω` is what a reading may depend on
besides.  A memo whose value is not `usable` is empty. -/
structure Source (σ V A ω : Type u) where
  version : σ → V
  read : ω → σ → A
  usable : A → Bool

/-- Where a reader is. -/
inductive Phase (V A : Type u) where
  | idle
  /-- The version has been looked up. -/
  | begun (v : V)
  /-- The memo is for another version, or empty. -/
  | missed
  /-- The snapshot has been read. -/
  | loaded (entry : V × A)

structure State (σ V A : Type u) where
  store : σ
  memo : V × A
  reader : Nat → Phase V A
  /-- Ghost: the states that were committed, the newest first. -/
  commits : List σ
  /-- Ghost: what was returned. -/
  answers : List (V × A)

def State.initial {σ V A : Type u} (store : σ) (blank : V × A) : State σ V A :=
  ⟨store, blank, fun _ => .idle, [store], []⟩

inductive Event (σ ω : Type u) where
  /-- The store changes. -/
  | commit (s : σ)
  | begin (i : Nat)
  | consult (i : Nat)
  | load (i : Nat) (w : ω)
  | enter (i : Nat)
  /-- A read fails, and the reader returns without an answer. -/
  | fail (i : Nat)

section Machine

variable {σ V A ω : Type u} [DecidableEq V] (src : Source σ V A ω)

/-- Reader `i` returns `entry`. -/
def State.answer (m : State σ V A) (i : Nat) (entry : V × A) : State σ V A :=
  { m with reader := Function.update m.reader i .idle, answers := entry :: m.answers }

def State.move (m : State σ V A) (i : Nat) (phase : Phase V A) : State σ V A :=
  { m with reader := Function.update m.reader i phase }

def step (m : State σ V A) : Event σ ω → Option (State σ V A)
  | .commit s => some { m with store := s, commits := s :: m.commits }
  | .begin i =>
      match m.reader i with
      | .idle => some (m.move i (.begun (src.version m.store)))
      | _ => none
  | .consult i =>
      match m.reader i with
      | .begun v =>
          if m.memo.1 = v ∧ src.usable m.memo.2 = true then some (m.answer i (v, m.memo.2))
          else some (m.move i .missed)
      | _ => none
  | .load i w =>
      match m.reader i with
      | .missed => some (m.move i (.loaded (src.version m.store, src.read w m.store)))
      | _ => none
  | .enter i =>
      match m.reader i with
      | .loaded entry => some { m.answer i entry with memo := entry }
      | _ => none
  | .fail i => some (m.move i .idle)

/-- An entry is the reading of a committed state. -/
def Vouched (commits : List σ) (entry : V × A) : Prop :=
  ∃ s ∈ commits, src.version s = entry.1 ∧ ∃ w, src.read w s = entry.2

/-- **The version determines the value**, among the committed states. -/
def Determined (commits : List σ) : Prop :=
  ∀ s ∈ commits, ∀ t ∈ commits, src.version s = src.version t →
    ∀ w w', src.read w s = src.read w' t

/-- Every entry that is kept, carried or returned is vouched for. -/
structure Sound (m : State σ V A) : Prop where
  newest : m.store ∈ m.commits
  memo : src.usable m.memo.2 = true → Vouched src m.commits m.memo
  loaded : ∀ i entry, m.reader i = .loaded entry → Vouched src m.commits entry
  answers : ∀ entry ∈ m.answers, Vouched src m.commits entry

end Machine

section Soundness

variable {σ V A ω : Type u} [DecidableEq V] {src : Source σ V A ω} {m m' : State σ V A}

omit [DecidableEq V] in
theorem Vouched.commit {commits : List σ} {entry : V × A} (h : Vouched src commits entry) (s : σ) :
    Vouched src (s :: commits) entry := by
  obtain ⟨t, member, reading⟩ := h
  exact ⟨t, List.mem_cons_of_mem s member, reading⟩

omit [DecidableEq V] in
theorem sound_initial (store : σ) {blank : V × A} (empty : src.usable blank.2 = false) :
    Sound src (.initial store blank) where
  newest := List.mem_singleton_self store
  memo usable := absurd (empty.symm.trans usable) nofun
  loaded := nofun
  answers := nofun

omit [DecidableEq V] in
/-- A reader moves to a phase that carries no entry, or one that is vouched for. -/
theorem Sound.move (sound : Sound src m) (i : Nat) {phase : Phase V A}
    (carried : ∀ entry, phase = .loaded entry → Vouched src m.commits entry) :
    Sound src (m.move i phase) := by
  refine { sound with loaded := ?_ }
  intro j entry isLoaded
  simp only [State.move] at isLoaded
  by_cases same : j = i
  · rw [same, Function.update_self] at isLoaded
    exact carried entry isLoaded
  · rw [Function.update_of_ne same] at isLoaded
    exact sound.loaded j entry isLoaded

omit [DecidableEq V] in
theorem Sound.answer (sound : Sound src m) (i : Nat) {entry : V × A}
    (vouched : Vouched src m.commits entry) : Sound src (m.answer i entry) where
  newest := sound.newest
  memo := sound.memo
  loaded := by
    have idle : Sound src (m.move i .idle) := sound.move i nofun
    exact idle.loaded
  answers := by
    intro e member
    rcases List.mem_cons.mp member with rfl | older
    · exact vouched
    · exact sound.answers e older

/-- **Every entry is that of a committed state**, in whatever order the readers go. -/
theorem sound_step {e : Event σ ω} (sound : Sound src m) (taken : step src m e = some m') :
    Sound src m' := by
  cases e with
  | commit s =>
      cases taken
      exact ⟨List.mem_cons_self, fun usable => (sound.memo usable).commit s,
        fun i entry isLoaded => (sound.loaded i entry isLoaded).commit s,
        fun entry member => (sound.answers entry member).commit s⟩
  | begin i =>
      simp only [step] at taken
      split at taken <;> cases taken
      exact sound.move i nofun
  | consult i =>
      simp only [step] at taken
      split at taken
      · split at taken <;> cases taken
        · rename_i hit
          -- the memo answers for its own version, which is the one looked up
          have vouched := sound.memo hit.2
          rw [← hit.1]
          exact sound.answer i vouched
        · exact sound.move i nofun
      · cases taken
  | load i w =>
      simp only [step] at taken
      split at taken <;> cases taken
      refine sound.move i ?_
      rintro _ ⟨⟩
      exact ⟨m.store, sound.newest, rfl, w, rfl⟩
  | enter i =>
      simp only [step] at taken
      split at taken <;> cases taken
      rename_i entry isLoaded
      have vouched := sound.loaded i entry isLoaded
      exact { sound.answer i vouched with memo := fun _ => vouched }
  | fail i =>
      cases taken
      exact sound.move i nofun

omit [DecidableEq V] in
/-- **An answer is right about its version**: it is the value of a committed state that has it,
and of every one. -/
theorem Sound.answer_right (sound : Sound src m) (determined : Determined src m.commits)
    {entry : V × A} (answered : entry ∈ m.answers) :
    (∃ s ∈ m.commits, src.version s = entry.1) ∧
      ∀ s ∈ m.commits, src.version s = entry.1 → ∀ w, src.read w s = entry.2 := by
  obtain ⟨t, committed, version, w, value⟩ := sound.answers entry answered
  refine ⟨⟨t, committed, version⟩, fun s member same w' => ?_⟩
  rw [← value]
  exact determined s member t committed (same.trans version.symm) w' w

end Soundness

end Memo
