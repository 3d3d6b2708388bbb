import FipsExitGate.Agent.Metering
import FipsExitGate.Lib.AtomicFile

/-!
# The agent's state file

`state.go`: `runtime.json` is read by `load` when the agent starts and replaced by
`writeJSONAtomic` whenever the runtime changes.  A file that does not parse must not keep the
agent down.  `load` moves it aside, and `openStore` writes a clean state in its place, with the
flag that makes the first collection record the counters without reporting them.

Between the two there is no file.  A start that stops there comes back as an agent that has
never run: `load` finds nothing, the flag is gone, and the counters are billed once more.

## Design notes

* A file's content is what `json.Unmarshal` makes of it: a runtime, or nothing.  An empty file
  does not parse.
* A start that stops, by a crash or an error, has taken the first steps of those it would take,
  and what they did stays.
* The identity in `identity.json` is left out; `load` reads it first and changes nothing.

## Main results

* `rt_after_starts` — the completed start has the flag exactly if none has stopped in the gap
* `recovery_crash_safe_iff` — and exactly then no byte is billed again
* `crash_in_gap_rebills` — a crash right after the corrupt file was moved aside
-/

namespace FipsExitGate.Agent

open AtomicFile Machine

/-- `runtime`. -/
structure NodeRuntime extends Runtime where
  authzRev : Int
  /-- `LastAuthzOK`; the zero time if there is none. -/
  lastAuthzOK : Time

/-- The runtime of an agent that has no file. -/
def NodeRuntime.fresh : NodeRuntime :=
  { Runtime.fresh with authzRev := 0, lastAuthzOK := zeroTime }

/-- The runtime `load` starts from when the file is corrupt. -/
def NodeRuntime.recovered : NodeRuntime :=
  { Runtime.recovered with authzRev := 0, lastAuthzOK := zeroTime }

/-- The content of a state file. -/
inductive Content where
  | runtime (rt : NodeRuntime)
  | unparsable

/-- `writeJSONAtomic`, as the steps it takes. -/
def writeJSONAtomic (rt : NodeRuntime) : List (FileOp Content) :=
  replace .unparsable (.runtime rt)

/-- What `load` and `openStore` come to: a runtime, and the steps on the directory. -/
structure Loaded where
  rt : NodeRuntime
  recovered : Bool
  steps : List (FileOp Content)

/-- `load`. -/
def load (d : Dir Content) : Loaded :=
  match d.file with
  | some (.runtime rt) => ⟨rt, false, []⟩
  | some .unparsable => ⟨.recovered, true, [.moveAside]⟩
  | none => ⟨.fresh, false, []⟩

/-- `openStore`. -/
def openStore (d : Dir Content) : Loaded :=
  let loaded := load d
  if loaded.recovered then { loaded with steps := loaded.steps ++ writeJSONAtomic loaded.rt }
  else loaded

/-- A start that stops after `n` steps. -/
def crashedStart (d : Dir Content) (n : Nat) : Option (Dir Content) :=
  some (AtomicFile.run d ((openStore d).steps.take n))

/-- **The condition**: a start that finds a corrupt file does not stop after it has moved it
aside, the first step, and before the new file is in place, the sixth. -/
def SparesGap (d : Dir Content) (n : Nat) : Prop :=
  d.file = some .unparsable → n = 0 ∨ 6 ≤ n

/-! ## The first collection -/

/-- **No byte is billed again**: whatever the kernel has counted when the agent starts, and
whatever it counts or resets until the first collection reads it, the report has at most the
bytes that were counted since the start. -/
def NoRebill (rt : Runtime) : Prop :=
  ∀ (κ κ' : Kernel) (bufferCap : Nat) (order : MapOrder Reading)
    (services : BitVec 16 → Option String) (reportId epoch windowEnd : String) (k : AcctKey),
    Relation.ReflTransGen Kernel.Evolves κ κ' →
      attributed k (collect bufferCap (order.reorder κ'.counters.entries) services reportId epoch
          windowEnd rt).report.toList + κ.counted k ≤ κ'.counted k

/-- The kernel never uncounts a byte. -/
theorem counted_le_of_evolves {κ κ' : Kernel}
    (evolves : Relation.ReflTransGen Kernel.Evolves κ κ') (k : AcctKey) :
    κ.counted k ≤ κ'.counted k := by
  induction evolves with
  | refl => exact le_rfl
  | tail _ last ih =>
      refine ih.trans ?_
      rcases last.counter k with ⟨n, -, counted⟩ | ⟨-, counted, -⟩
      · rw [counted]
        exact Nat.le_add_right _ _
      · exact counted.ge

/-- A runtime with the flag reports nothing at first. -/
theorem noRebill_of_primed {rt : Runtime} (primed : rt.primeBaselines = true) : NoRebill rt := by
  intro κ κ' bufferCap order services reportId epoch windowEnd k evolves
  have collects := collects_collect (nodupKeys_reorder order κ'.counters) bufferCap services
    reportId epoch windowEnd rt
  rw [collects.reported k, Runtime.owed, if_pos primed, Nat.zero_add]
  exact counted_le_of_evolves evolves k

/-- One without a file reports everything. -/
theorem not_noRebill_fresh : ¬ NoRebill .fresh := by
  intro spared
  let κ := Kernel.initial (AList.singleton webTraffic 1)
  have billed := spared κ κ 1 .id (fun _ => none) "" "" "" webTraffic .refl
  exact absurd billed (by decide +kernel)

/-! ## Starts that stop -/

section Starts

variable {d d' : Dir Content} {n : Nat} {crashes : List Nat}

/-- A start that finds no corrupt file changes nothing, wherever it stops. -/
theorem crashedStart_of_ne (sound : d.file ≠ some .unparsable) : crashedStart d n = some d := by
  have quiet : (openStore d).steps = [] := by
    unfold openStore load
    split
    · rfl
    · rename_i corrupt
      exact absurd corrupt sound
    · rfl
  rw [crashedStart, quiet, List.take_nil, AtomicFile.run_nil]

/-- A start that finds a corrupt file: it is still there, or there is none, or the clean one. -/
theorem file_crashedStart (corrupt : d.file = some .unparsable) (n : Nat) :
    (AtomicFile.run d ((openStore d).steps.take n)).file =
      if n = 0 then some .unparsable else if n < 6 then none else some (.runtime .recovered) := by
  have steps : (openStore d).steps = .moveAside :: writeJSONAtomic .recovered := by
    simp [openStore, load, corrupt]
  rw [steps]
  cases n with
  | zero => exact corrupt
  | succ n =>
      rw [List.take_succ_cons, run_cons, writeJSONAtomic, file_run_take_replace,
        if_neg (Nat.succ_ne_zero n)]
      by_cases early : n < 5
      · rw [if_pos early, if_pos (by omega)]
        rfl
      · rw [if_neg early, if_neg (by omega)]

/-- What is in place as long as no start stops in the gap. -/
def Intact (d : Dir Content) : Prop :=
  d.file = some .unparsable ∨ d.file = some (.runtime .recovered)

theorem intact_crashedStart (intact : Intact d) (spared : SparesGap d n)
    (h : crashedStart d n = some d') : Intact d' := by
  rcases intact with corrupt | clean
  · cases h
    unfold Intact
    rw [file_crashedStart corrupt]
    rcases spared corrupt with rfl | late
    · exact .inl rfl
    · rw [if_neg (by omega), if_neg (by omega)]
      exact .inr rfl
  · rw [crashedStart_of_ne (by simp [clean])] at h
    cases h
    exact .inr clean

/-- Once there is no file, no start makes one. -/
theorem missing_crashedStart (missing : d.file = none) (h : crashedStart d n = some d') :
    d'.file = none := by
  rw [crashedStart_of_ne (by simp [missing])] at h
  cases h
  exact missing

/-- **A start that stops in the gap loses the file** for all starts to come. -/
theorem missing_of_not_spared (stops : ¬ Meets crashedStart SparesGap d crashes)
    (ran : Machine.run crashedStart d crashes = some d') : d'.file = none := by
  simp only [Meets, SparesGap, not_forall, not_or, exists_prop] at stops
  obtain ⟨before, n, later, d₁, rfl, reached, corrupt, started, short⟩ := stops
  have gone : (AtomicFile.run d₁ ((openStore d₁).steps.take n)).file = none := by
    rw [file_crashedStart corrupt, if_neg started, if_pos (by omega)]
  rw [run_append, reached, Option.bind_some] at ran
  obtain ⟨d₂, stopped, rest⟩ := run_cons_eq_some ran
  cases stopped
  exact run_invariant (fun _ _ _ missing h => missing_crashedStart missing h) later gone rest

/-- **What the completed start begins with**: the recovered runtime if no start has stopped in
the gap, and that of an agent that has never run otherwise. -/
theorem rt_after_starts (corrupt : d.file = some .unparsable)
    (ran : Machine.run crashedStart d crashes = some d') :
    (Meets crashedStart SparesGap d crashes ∧ (openStore d').rt = .recovered) ∨
      (¬ Meets crashedStart SparesGap d crashes ∧ (openStore d').rt = .fresh) := by
  by_cases spared : Meets crashedStart SparesGap d crashes
  · have intact : Intact d' := spared.run_invariant
      (fun _ _ _ intact spared h => intact_crashedStart intact spared h) (.inl corrupt) ran
    refine .inl ⟨spared, ?_⟩
    rcases intact with file | file
    · simp [openStore, load, file]
    · simp [openStore, load, file]
  · have missing := missing_of_not_spared spared ran
    exact .inr ⟨spared, by simp [openStore, load, missing]⟩

end Starts

/-- **Recovery is crash-safe exactly outside the gap.**  From a file that does not parse, after
any sequence of starts that stop after any of their steps, and a start that completes: the
first collection bills no byte that was counted before, and the flag is there, if and only if
no start stopped between moving the file aside and putting the new one in place. -/
theorem recovery_crash_safe_iff (d d' : Dir Content) (crashes : List Nat)
    (corrupt : d.file = some .unparsable) (ran : Machine.run crashedStart d crashes = some d') :
    (NoRebill (openStore d').rt.toRuntime ↔ Meets crashedStart SparesGap d crashes) ∧
      ((openStore d').rt.primeBaselines = true ↔ Meets crashedStart SparesGap d crashes) := by
  rcases rt_after_starts corrupt ran with ⟨spared, rt⟩ | ⟨gap, rt⟩
  · rw [rt]
    exact ⟨iff_of_true (noRebill_of_primed rfl) spared, iff_of_true rfl spared⟩
  · rw [rt]
    exact ⟨iff_of_false not_noRebill_fresh gap, iff_of_false (by decide) gap⟩

/-- A corrupt file and nothing else. -/
def corruptDir : Dir Content := ⟨some .unparsable, none, []⟩

/-- A start that fails to move the file aside, one that crashes after everything is done, and
one that crashes before it has read anything. -/
theorem recovery_crash_safe_iff_spared :
    ∃ d', Machine.run crashedStart corruptDir [0, 7, 0] = some d' ∧
      NoRebill (openStore d').rt.toRuntime := by
  refine ⟨_, rfl, ?_⟩
  refine (recovery_crash_safe_iff corruptDir _ [0, 7, 0] rfl rfl).1.mpr ?_
  refine meets_of_forall fun n member d _ => ?_
  simp only [List.mem_cons, List.not_mem_nil, or_false] at member
  omega

/-- **A crash in the gap bills again.**  The agent crashes right after it has moved the corrupt
file aside.  The next start finds no file and no flag, and its first collection reports the
hundred bytes that the kernel had counted before. -/
theorem crash_in_gap_rebills :
    ∃ d', Machine.run crashedStart corruptDir [1] = some d' ∧
      (openStore d').rt.primeBaselines = false ∧
      attributed webTraffic (collect 2880 (AList.singleton webTraffic 100 : Counters).entries
        (fun _ => some "web") "report-1" "boot-1" "" (openStore d').rt.toRuntime).report.toList =
          100 := by
  exact ⟨_, rfl, by decide +kernel, by decide +kernel⟩

end FipsExitGate.Agent
