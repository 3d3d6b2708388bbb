import Mathlib.Init

/-!
# Programs with state and errors

A program of type `Prog σ ε α` runs in a state of type `σ` and either returns a
value or fails with an error; the state it has reached by then stays in both
cases.  A `transaction` is a program that undoes itself when it fails.

`Triple P m Q E` is total correctness of such a program: from a state with `P` it
either returns with `Q` or fails with `E`.  Two postconditions are needed because
a failing program may leave work of earlier transactions behind.

## Main definitions

* `Prog`, `exec` — programs and their runs
* `transaction` — all of a program or, up to `restore`, nothing of it
* `Triple` — pre- and postconditions, with one rule for each way to build a program
* `Keeps` — a property that a program keeps whether it returns or fails
-/

namespace Program

variable {σ ε α β : Type}

/-- Programs over the state `σ` that may fail with `ε`. -/
abbrev Prog (σ ε α : Type) := ExceptT ε (StateM σ) α

/-- The result of a program and the state it leaves. -/
def exec (m : Prog σ ε α) (s : σ) : Except ε α × σ :=
  (ExceptT.run m).run s

@[simp] theorem exec_get (s : σ) : exec (get : Prog σ ε σ) s = (.ok s, s) := rfl

@[simp] theorem exec_modify (f : σ → σ) (s : σ) :
    exec (modify f : Prog σ ε PUnit) s = (.ok ⟨⟩, f s) := rfl

theorem exec_bind (m : Prog σ ε α) (f : α → Prog σ ε β) (s : σ) :
    exec (m >>= f) s =
      match exec m s with
      | (.ok a, s') => exec (f a) s'
      | (.error e, s') => (.error e, s') := by
  show StateT.run (ExceptT.run (m >>= f)) s = _
  simp only [exec]
  rw [ExceptT.run_bind]
  show (StateT.run (ExceptT.run m >>= _) s) = _
  rw [StateT.run_bind]
  show (match StateT.run (ExceptT.run m) s with | (a, s') => _) = _
  rcases StateT.run (ExceptT.run m) s with ⟨result, s'⟩
  cases result <;> rfl

theorem exec_bind_ok {m : Prog σ ε α} {f : α → Prog σ ε β} {s s' : σ} {a : α}
    (h : exec m s = (.ok a, s')) : exec (m >>= f) s = exec (f a) s' := by
  rw [exec_bind, h]

theorem exec_bind_error {m : Prog σ ε α} {f : α → Prog σ ε β} {s s' : σ} {e : ε}
    (h : exec m s = (.error e, s')) : exec (m >>= f) s = (.error e, s') := by
  rw [exec_bind, h]

/-- Dropping the result changes nothing else. -/
theorem snd_exec_drop (m : Prog σ ε α) (s : σ) :
    (exec (m >>= fun _ => pure ()) s).2 = (exec m s).2 := by
  rw [exec_bind]
  rcases exec m s with ⟨_ | _, s'⟩ <;> rfl

/-- **Inversion of sequencing.**  If a sequence returns, both parts did. -/
theorem exec_bind_eq_ok {m : Prog σ ε α} {f : α → Prog σ ε β} {s s'' : σ} {b : β}
    (h : exec (m >>= f) s = (.ok b, s'')) :
    ∃ a s', exec m s = (.ok a, s') ∧ exec (f a) s' = (.ok b, s'') := by
  rw [exec_bind] at h
  rcases run : exec m s with ⟨result, s'⟩
  rw [run] at h
  cases result with
  | ok a => exact ⟨a, s', rfl, h⟩
  | error e => cases h

/-- Inversion of a program that starts by reading the state. -/
theorem exec_get_bind (f : σ → Prog σ ε β) (s : σ) : exec (get >>= f) s = exec (f s) s := by
  rw [exec_bind_ok (exec_get s)]

theorem exec_map (f : α → β) (m : Prog σ ε α) (s : σ) :
    exec (f <$> m) s = ((exec m s).1.map f, (exec m s).2) := by
  rw [← bind_pure_comp, exec_bind]
  rcases exec m s with ⟨result, s'⟩
  cases result <;> rfl

/-- A translation of the result that forgets nothing forgets no difference. -/
theorem exec_eq_of_exec_map_eq {f : α → β} (injective : ∀ a b, f a = f b → a = b)
    {m m' : Prog σ ε α} {s : σ} (h : exec (f <$> m) s = exec (f <$> m') s) :
    exec m s = exec m' s := by
  rw [exec_map, exec_map, Prod.mk.injEq] at h
  refine Prod.ext ?_ h.2
  cases left : (exec m s).1 with
  | ok a =>
      cases right : (exec m' s).1 with
      | ok b =>
          rw [left, right] at h
          exact congrArg _ (injective a b (Except.ok.inj h.1))
      | error e => rw [left, right] at h; cases h.1
  | error e =>
      cases right : (exec m' s).1 with
      | ok b => rw [left, right] at h; cases h.1
      | error e' =>
          rw [left, right] at h
          exact congrArg _ (Except.error.inj h.1)

/-! ## Transactions -/

/-- Run `m`; if it fails, or if the outcome is `lost`, put back what can be put
back.  `restore before after` is what a rollback leaves. -/
def transaction (restore : σ → σ → σ) (lost : Option ε) (m : Prog σ ε α) : Prog σ ε α :=
  ExceptT.mk fun s =>
    match exec m s, lost with
    | (.ok a, s'), none => (.ok a, s')
    | (.ok _, s'), some e => (.error e, restore s s')
    | (.error e, s'), _ => (.error e, restore s s')

theorem exec_transaction (restore : σ → σ → σ) (lost : Option ε) (m : Prog σ ε α) (s : σ) :
    exec (transaction restore lost m) s =
      match exec m s, lost with
      | (.ok a, s'), none => (.ok a, s')
      | (.ok _, s'), some e => (.error e, restore s s')
      | (.error e, s'), _ => (.error e, restore s s') := rfl

/-- Run `m` and translate its error. -/
def mapError (f : ε → ε) (m : Prog σ ε α) : Prog σ ε α :=
  ExceptT.mk fun s =>
    match exec m s with
    | (.ok a, s') => (.ok a, s')
    | (.error e, s') => (.error (f e), s')

theorem exec_mapError (f : ε → ε) (m : Prog σ ε α) (s : σ) :
    exec (mapError f m) s =
      match exec m s with
      | (.ok a, s') => (.ok a, s')
      | (.error e, s') => (.error (f e), s') := rfl

/-! ## Triples -/

/-- From a state with `P` the program returns a value with `Q`, or fails in a state
with `E`. -/
structure Triple (P : σ → Prop) (m : Prog σ ε α) (Q : α → σ → Prop) (E : σ → Prop) : Prop where
  holds : ∀ s, P s →
    match exec m s with
    | (.ok a, s') => Q a s'
    | (.error _, s') => E s'

/-- The program keeps `I`, whether it returns or fails. -/
def Keeps (I : σ → Prop) (m : Prog σ ε α) : Prop :=
  Triple I m (fun _ => I) I

namespace Triple

variable {P P' : σ → Prop} {Q Q' : α → σ → Prop} {R : β → σ → Prop} {E E' : σ → Prop}

theorem pure {a : α} (h : ∀ s, P s → Q a s) : Triple P (Pure.pure a : Prog σ ε α) Q E :=
  ⟨h⟩

theorem throw {e : ε} (h : ∀ s, P s → E s) : Triple P (throw e : Prog σ ε α) Q E :=
  ⟨h⟩

/-- Sequencing: what the first program establishes is what the second one needs. -/
theorem bind {m : Prog σ ε α} {f : α → Prog σ ε β} (first : Triple P m Q E)
    (rest : ∀ a, Triple (Q a) (f a) R E) : Triple P (m >>= f) R E := by
  refine ⟨fun s pre => ?_⟩
  have mid := first.holds s pre
  rw [exec_bind]
  rcases run : exec m s with ⟨result, s'⟩
  rw [run] at mid
  cases result with
  | ok a => exact (rest a).holds s' mid
  | error e => exact mid

theorem conseq {m : Prog σ ε α} (h : Triple P' m Q' E') (pre : ∀ s, P s → P' s)
    (post : ∀ a s, Q' a s → Q a s) (fail : ∀ s, E' s → E s) : Triple P m Q E := by
  refine ⟨fun s start => ?_⟩
  have result := h.holds s (pre s start)
  rcases run : exec m s with ⟨outcome, s'⟩
  rw [run] at result
  cases outcome with
  | ok a => exact post a s' result
  | error e => exact fail s' result

/-- What is known of a program that returns is a triple about it. -/
theorem of_ok {m : Prog σ ε α} (h : ∀ s a s', P s → exec m s = (.ok a, s') → Q a s') :
    Triple P m Q fun _ => True := by
  refine ⟨fun s pre => ?_⟩
  rcases run : exec m s with ⟨outcome, s'⟩
  cases outcome with
  | ok a => exact h s a s' pre run
  | error e => trivial

theorem strengthen {m : Prog σ ε α} (h : Triple P' m Q E) (pre : ∀ s, P s → P' s) :
    Triple P m Q E :=
  h.conseq pre (fun _ _ post => post) fun _ fail => fail

/-- Two triples about one program. -/
theorem both {m : Prog σ ε α} (one : Triple P m Q E) (two : Triple P' m Q' E') :
    Triple (fun s => P s ∧ P' s) m (fun a s => Q a s ∧ Q' a s) fun s => E s ∧ E' s := by
  refine ⟨fun s pre => ?_⟩
  have first := one.holds s pre.1
  have second := two.holds s pre.2
  rcases run : exec m s with ⟨outcome, s'⟩
  rw [run] at first second
  cases outcome <;> exact ⟨first, second⟩

/-- A transaction returns what its body returns; when it fails, only what a
rollback leaves has to be good. -/
theorem transaction {m : Prog σ ε α} {restore : σ → σ → σ} {lost : Option ε}
    (body : Triple P m Q fun _ => True) (rolledBack : ∀ s s', P s → E (restore s s')) :
    Triple P (transaction restore lost m) Q E := by
  refine ⟨fun s pre => ?_⟩
  have result := body.holds s pre
  rw [exec_transaction]
  rcases run : exec m s with ⟨outcome, s'⟩
  rw [run] at result
  cases outcome with
  | error e => exact rolledBack s s' pre
  | ok a =>
      cases lost with
      | none => exact result
      | some e => exact rolledBack s s' pre

/-- Which error it is does not matter to a triple. -/
theorem mapError {m : Prog σ ε α} {f : ε → ε} (h : Triple P m Q E) :
    Triple P (mapError f m) Q E := by
  refine ⟨fun s pre => ?_⟩
  have result := h.holds s pre
  rw [exec_mapError]
  rcases run : exec m s with ⟨outcome, s'⟩
  rw [run] at result
  cases outcome <;> exact result

end Triple

namespace Keeps

variable {I : σ → Prop}

theorem pure (a : α) : Keeps I (Pure.pure a : Prog σ ε α) :=
  Triple.pure fun _ h => h

theorem throw (e : ε) : Keeps I (throw e : Prog σ ε α) :=
  Triple.throw fun _ h => h

theorem bind {m : Prog σ ε α} {f : α → Prog σ ε β} (first : Keeps I m)
    (rest : ∀ a, Keeps I (f a)) : Keeps I (m >>= f) :=
  Triple.bind first rest

theorem modify {f : σ → σ} (kept : ∀ s, I s → I (f s)) :
    Keeps I (modify f : Prog σ ε PUnit) :=
  ⟨kept⟩

theorem ite {c : Prop} [Decidable c] {m₁ m₂ : Prog σ ε α} (yes : Keeps I m₁) (no : Keeps I m₂) :
    Keeps I (if c then m₁ else m₂) := by
  split
  · exact yes
  · exact no

/-- A loop keeps what its body keeps. -/
theorem forM {f : β → Prog σ ε PUnit} (kept : ∀ b, Keeps I (f b)) (bs : List β) :
    Keeps I (bs.forM f) := by
  induction bs with
  | nil => exact Keeps.pure PUnit.unit
  | cons b bs ih => exact Keeps.bind (kept b) fun _ => ih

/-- A program that only reads the state first. -/
theorem get_bind {f : σ → Prog σ ε β} (rest : ∀ s, Keeps I (f s)) : Keeps I (get >>= f) := by
  refine ⟨fun s h => ?_⟩
  rw [exec_get_bind]
  exact (rest s).holds s h

/-- A transaction keeps what its body keeps when it returns, and what a rollback
does not disturb. -/
theorem transaction {m : Prog σ ε α} {restore : σ → σ → σ} {lost : Option ε}
    (body : ∀ s a s', I s → Program.exec m s = (.ok a, s') → I s')
    (rolledBack : ∀ s s', I s → I (restore s s')) : Keeps I (transaction restore lost m) :=
  Triple.transaction (Triple.of_ok body) rolledBack

theorem mapError {m : Prog σ ε α} {f : ε → ε} (h : Keeps I m) : Keeps I (mapError f m) :=
  Triple.mapError h

end Keeps

/-- What a program keeps, the state it returns in has. -/
theorem Keeps.ok {I : σ → Prop} {m : Prog σ ε α} (keeps : Keeps I m) {s s' : σ} {a : α} (h : I s)
    (run : Program.exec m s = (.ok a, s')) : I s' := by
  have result := keeps.holds s h
  rwa [run] at result

/-- What holds whether a program returns or fails, its final state has. -/
theorem Triple.exec {P I : σ → Prop} {m : Prog σ ε α} (triple : Triple P m (fun _ => I) I) {s : σ}
    (h : P s) : I (exec m s).2 := by
  have result := triple.holds s h
  rcases run : Program.exec m s with ⟨outcome, s'⟩
  rw [run] at result
  cases outcome <;> exact result

/-- What a program keeps, its final state has. -/
theorem Keeps.exec {I : σ → Prop} {m : Prog σ ε α} (keeps : Keeps I m) {s : σ} (h : I s) :
    I (exec m s).2 :=
  Triple.exec keeps h

/-! ## Which errors a program ends in -/

/-- From a state with `P` the program returns a value with `Q`, or fails with an error that
has `E`.  Nothing is said of the state it fails in. -/
structure Ends (P : σ → Prop) (m : Prog σ ε α) (Q : α → σ → Prop) (E : ε → Prop) : Prop where
  holds : ∀ s, P s →
    match Program.exec m s with
    | (.ok a, s') => Q a s'
    | (.error e, _) => E e

namespace Ends

variable {P : σ → Prop} {Q : α → σ → Prop} {R : β → σ → Prop} {E : ε → Prop}

theorem pure {a : α} (h : ∀ s, P s → Q a s) : Ends P (Pure.pure a : Prog σ ε α) Q E :=
  ⟨h⟩

theorem throw {e : ε} (h : E e) : Ends P (throw e : Prog σ ε α) Q E :=
  ⟨fun _ _ => h⟩

theorem modify {f : σ → σ} {Q : PUnit → σ → Prop} (h : ∀ s, P s → Q ⟨⟩ (f s)) :
    Ends P (modify f : Prog σ ε PUnit) Q E :=
  ⟨h⟩

theorem bind {m : Prog σ ε α} {f : α → Prog σ ε β} (first : Ends P m Q E)
    (rest : ∀ a, Ends (Q a) (f a) R E) : Ends P (m >>= f) R E := by
  refine ⟨fun s pre => ?_⟩
  have mid := first.holds s pre
  rw [exec_bind]
  rcases run : Program.exec m s with ⟨result, s'⟩
  rw [run] at mid
  cases result with
  | ok a => exact (rest a).holds s' mid
  | error e => exact mid

/-- What a program does from a single state is read off its run. -/
theorem get_bind {f : σ → Prog σ ε β} (rest : ∀ s, P s → Ends (fun s' => s' = s) (f s) R E) :
    Ends P (get >>= f) R E := by
  refine ⟨fun s pre => ?_⟩
  rw [exec_get_bind]
  exact (rest s pre).holds s rfl

theorem of_ok {m : Prog σ ε α} (h : ∀ s, P s → ∃ a s', Program.exec m s = (.ok a, s') ∧ Q a s') :
    Ends P m Q E := by
  refine ⟨fun s pre => ?_⟩
  obtain ⟨a, s', run, post⟩ := h s pre
  rw [run]
  exact post

theorem imp {m : Prog σ ε α} {Q' : α → σ → Prop} (ends : Ends P m Q' E)
    (post : ∀ a s, Q' a s → Q a s) : Ends P m Q E := by
  refine ⟨fun s pre => ?_⟩
  have result := ends.holds s pre
  rcases run : Program.exec m s with ⟨outcome, s'⟩
  rw [run] at result
  cases outcome with
  | ok a => exact post a s' result
  | error e => exact result

/-- One state at a time. -/
theorem each {m : Prog σ ε α} (h : ∀ s, P s → Ends (fun s' => s' = s) m Q E) : Ends P m Q E :=
  ⟨fun s pre => (h s pre).holds s rfl⟩

/-- What is known of a program that returns need not be shown again. -/
theorem with_ok {m : Prog σ ε α} {Q' : α → σ → Prop} (ends : Ends P m Q' E)
    (h : ∀ s a s', P s → Program.exec m s = (.ok a, s') → Q a s') : Ends P m Q E := by
  refine ⟨fun s pre => ?_⟩
  have result := ends.holds s pre
  rcases run : Program.exec m s with ⟨outcome, s'⟩
  rw [run] at result
  cases outcome with
  | ok a => exact h s a s' pre run
  | error e => exact result

/-- A transaction that returns is not lost; it fails with the error of its body, or because it
is lost. -/
theorem transaction {m : Prog σ ε α} {restore : σ → σ → σ} {lost : Option ε} (body : Ends P m Q E)
    (isLost : ∀ e, lost = some e → E e) :
    Ends P (transaction restore lost m) (fun a s => Q a s ∧ lost = none) E := by
  refine ⟨fun s pre => ?_⟩
  have result := body.holds s pre
  rw [exec_transaction]
  rcases run : Program.exec m s with ⟨outcome, s'⟩
  rw [run] at result
  cases outcome with
  | error e => exact result
  | ok a =>
      cases lost with
      | none => exact ⟨result, rfl⟩
      | some e => exact isLost e rfl

end Ends

end Program
