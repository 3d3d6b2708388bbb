import Mathlib.Data.Finset.Sort
import Mathlib.Data.List.GetD
import Mathlib.LinearAlgebra.LinearIndependent.Lemmas
import Mathlib.LinearAlgebra.Pi
import Mathlib.Tactic.FieldSimp
import Mathlib.Tactic.LinearCombination

/-!
# Cyclic checks over a field

A register of `n + 1` symbols over a field, into which a word is shifted symbol by symbol; what
falls out at the top is fed back as a multiple of a fixed generator.  A word is a code word if
the register ends at zero.

## The argument

The register ends at the sum of the word's symbols, each times the *column* of its position,
counted from the end of the word (`run_eq_sum`).  So a word with few symbols other than zero is no
code word if no few columns are dependent (`run_ne_zero`).  The register loses nothing if the
generator's lowest symbol is not zero, so it is enough to look at four columns of which the first
is that of the last position (`linearIndepOn_of_triples`); that one has a single symbol, so what
is left is whether three columns without their lowest symbols are dependent.

Eliminating one symbol leaves two vectors (`triple_independent`), and two vectors other than zero
are independent if they differ after division by their first symbol other than zero
(`pair_independent`).  That is a condition to be evaluated.
-/

namespace LinearCode

variable {K : Type*} [Field K] {n : ℕ}

/-! ## The register -/

/-- One turn: `v` comes in at the bottom, and the top symbol is fed back. -/
def step (g s : Fin (n + 1) → K) (v : K) : Fin (n + 1) → K :=
  (Fin.cons v (Fin.init s) : Fin (n + 1) → K) + s (Fin.last n) • g

/-- The register after a word. -/
def run (g : Fin (n + 1) → K) (word : List K) : Fin (n + 1) → K := word.foldl (step g) 0

/-- The turn that brings in zero. -/
def shift (g : Fin (n + 1) → K) : (Fin (n + 1) → K) →ₗ[K] (Fin (n + 1) → K) where
  toFun s := step g s 0
  map_add' s t := by
    funext j
    refine Fin.cases ?_ (fun j => ?_) j <;> simp [step, Fin.init] <;> ring
  map_smul' c s := by
    funext j
    refine Fin.cases ?_ (fun j => ?_) j <;> simp [step, Fin.init] <;> ring

theorem step_eq (g s : Fin (n + 1) → K) (v : K) :
    step g s v = v • Pi.single 0 1 + shift g s := by
  funext j
  refine Fin.cases ?_ (fun j => ?_) j
  · simp [step, shift]
  · simp [step, shift]

/-- What a symbol leads to when `p` more follow. -/
def column (g : Fin (n + 1) → K) (p : ℕ) : Fin (n + 1) → K := (shift g ^ p) (Pi.single 0 1)

theorem column_zero (g : Fin (n + 1) → K) : column g 0 = Pi.single 0 1 := rfl

theorem column_add (g : Fin (n + 1) → K) (p q : ℕ) :
    column g (p + q) = (shift g ^ p) (column g q) := by
  rw [column, pow_add]
  rfl

theorem column_succ (g : Fin (n + 1) → K) (p : ℕ) : column g (p + 1) = shift g (column g p) := by
  rw [Nat.add_comm p 1, column_add, pow_one]

/-- The register ends at the sum of the columns, each times the symbol at its position. -/
theorem run_eq_sum (g : Fin (n + 1) → K) (word : List K) :
    run g word = ∑ i ∈ Finset.range word.length, word.reverse.getD i 0 • column g i := by
  induction word using List.reverseRecOn with
  | nil => rfl
  | append_singleton word v ih =>
      have turn : run g (word ++ [v]) = v • Pi.single 0 1 + shift g (run g word) := by
        rw [run, List.foldl_append]
        exact step_eq g _ v
      rw [turn, ih, map_sum, List.length_append, List.length_singleton, Finset.sum_range_succ',
        add_comm (v • _)]
      simp [column_succ, column_zero]

/-! ## Words with few symbols -/

theorem card_filter_getD [DecidableEq K] (word : List K) :
    ((Finset.range word.length).filter fun i => word.getD i 0 ≠ 0).card =
      word.countP (· ≠ 0) := by
  induction word using List.reverseRecOn with
  | nil => rfl
  | append_singleton word v ih =>
      have before : ((Finset.range word.length).filter fun i => (word ++ [v]).getD i 0 ≠ 0) =
          (Finset.range word.length).filter fun i => word.getD i 0 ≠ 0 := by
        refine Finset.filter_congr fun i i_mem => ?_
        rw [List.getD_append _ _ _ _ (Finset.mem_range.mp i_mem)]
      rw [List.length_append, List.length_singleton, Finset.range_add_one, Finset.filter_insert,
        before, List.countP_append, ← ih, List.getD_append_right _ _ _ _ le_rfl]
      by_cases v_eq : v = 0 <;> simp [v_eq]

/-- A word with at least one and at most `d` symbols other than zero is no code word, if any `d`
columns are independent. -/
theorem run_ne_zero [DecidableEq K] {g : Fin (n + 1) → K} {N d : ℕ} (enough : d ≤ N)
    (independent : ∀ T ⊆ Finset.range N, T.card = d → LinearIndepOn K (column g) (T : Set ℕ))
    {word : List K} (length : word.length ≤ N) (few : word.countP (· ≠ 0) ≤ d)
    (different : ∃ v ∈ word, v ≠ 0) : run g word ≠ 0 := by
  intro zero
  let symbols : ℕ → K := fun i => word.reverse.getD i 0
  let S := (Finset.range word.length).filter fun i => symbols i ≠ 0
  have card : S.card ≤ d := by
    have count := card_filter_getD word.reverse
    rw [List.length_reverse, List.countP_reverse] at count
    exact count.trans_le few
  have inRange : S ⊆ Finset.range N := fun i i_mem =>
    Finset.mem_range.mpr
      ((Finset.mem_range.mp (Finset.mem_filter.mp i_mem).1).trans_le length)
  obtain ⟨T, S_sub, T_sub, T_card⟩ :=
    Finset.exists_subsuperset_card_eq inRange card (by simpa using enough)
  -- outside `S` the symbols are zero, so the sum over `T` is the register
  have outside : ∀ i, i ∉ S → symbols i = 0 := by
    intro i i_notMem
    by_contra nonzero
    refine i_notMem (Finset.mem_filter.mpr ⟨?_, nonzero⟩)
    rw [Finset.mem_range, ← List.length_reverse]
    by_contra large
    exact nonzero (List.getD_eq_default _ _ (by omega))
  have overS : ∑ i ∈ S, symbols i • column g i = run g word := by
    rw [run_eq_sum]
    refine Finset.sum_subset (Finset.filter_subset _ _) fun i _ i_notMem => ?_
    rw [outside i i_notMem, zero_smul]
  have overT : ∑ i ∈ T, symbols i • column g i = 0 := by
    rw [← zero, ← overS]
    refine (Finset.sum_subset S_sub fun i _ i_notMem => ?_).symm
    rw [outside i i_notMem, zero_smul]
  have all_zero := linearIndepOn_finset_iff.mp (independent T T_sub T_card) symbols overT
  obtain ⟨v, v_mem, v_ne⟩ := different
  obtain ⟨i, i_lt, rfl⟩ := List.mem_iff_getElem.mp (List.mem_reverse.mpr v_mem)
  have at_i : symbols i = word.reverse[i] := List.getD_eq_getElem _ _ i_lt
  have i_mem : i ∈ S :=
    Finset.mem_filter.mpr ⟨Finset.mem_range.mpr (by simpa using i_lt), at_i ▸ v_ne⟩
  exact v_ne (at_i ▸ all_zero i (S_sub i_mem))

/-! ## Four columns -/

theorem shift_injective {g : Fin (n + 1) → K} (lowest : g 0 ≠ 0) :
    Function.Injective (shift g) := by
  refine (injective_iff_map_eq_zero _).mpr fun s zero => ?_
  have top : s (Fin.last n) = 0 := by
    have bottom := congrFun zero 0
    simpa [shift, step, lowest] using bottom
  have rest : ∀ j : Fin n, s j.castSucc = 0 := by
    intro j
    simpa [shift, step, top, Fin.init] using congrFun zero j.succ
  funext j
  exact Fin.lastCases top rest j

/-- Any four columns are independent if three are so above the lowest symbol. -/
theorem linearIndepOn_of_triples {g : Fin (n + 1) → K} (lowest : g 0 ≠ 0) {N : ℕ}
    (triples : ∀ a b c : ℕ, 0 < a → a < b → b < c → c < N → ∀ x y z : K,
      (∀ j : Fin n, x * column g a j.succ + y * column g b j.succ + z * column g c j.succ = 0) →
        x = 0 ∧ y = 0 ∧ z = 0)
    {T : Finset ℕ} (T_sub : T ⊆ Finset.range N) (T_card : T.card = 4) :
    LinearIndepOn K (column g) (T : Set ℕ) := by
  let p := T.orderEmbOfFin T_card
  have lt (i j : Fin 4) (i_lt : i < j) : p i < p j := p.strictMono i_lt
  have p_lt (i : Fin 4) : p i < N := Finset.mem_range.mp (T_sub (T.orderEmbOfFin_mem T_card i))
  rw [← T.range_orderEmbOfFin T_card, linearIndepOn_range_iff p.injective,
    Fintype.linearIndependent_iff]
  intro w zero
  -- all four columns are moved down until the first is that of the last position
  have down (i : Fin 4) : column g (p i) = (shift g ^ p 0) (column g (p i - p 0)) := by
    have le : p 0 ≤ p i := p.monotone (Fin.zero_le i)
    rw [← column_add, Nat.add_sub_cancel' le]
  have moved : ∑ i, w i • column g (p i - p 0) = 0 := by
    have injective : Function.Injective (shift g ^ p 0) := by
      rw [Module.End.coe_pow]
      exact (shift_injective lowest).iterate _
    refine (injective_iff_map_eq_zero _).mp injective _ ?_
    rw [← zero, map_sum]
    refine Finset.sum_congr rfl fun i _ => ?_
    rw [map_smul, Function.comp_apply, down i]
  rw [Fin.sum_univ_four, Nat.sub_self, column_zero] at moved
  have l01 := lt 0 1 (by decide)
  have l12 := lt 1 2 (by decide)
  have l23 := lt 2 3 (by decide)
  have l3 := p_lt 3
  obtain ⟨w1, w2, w3⟩ := triples (p 1 - p 0) (p 2 - p 0) (p 3 - p 0) (by omega) (by omega)
    (by omega) (by omega) (w 1) (w 2) (w 3) fun j => by simpa using congrFun moved j.succ
  have w0 : w 0 = 0 := by simpa [w1, w2, w3] using congrFun moved 0
  intro i
  fin_cases i
  exacts [w0, w1, w2, w3]

/-! ## Elimination -/

/-- `y` with the symbol at `i` eliminated by `x`. -/
def eliminate {m : ℕ} (i : Fin m) (x y : Fin m → K) (j : Fin m) : K := x i * y j - y i * x j

theorem triple_independent {m : ℕ} {x y z : Fin m → K} {i : Fin m} (pivot : x i ≠ 0)
    (pair : ∀ s t : K, (∀ j, s * eliminate i x y j + t * eliminate i x z j = 0) → s = 0 ∧ t = 0)
    {r s t : K} (zero : ∀ j, r * x j + s * y j + t * z j = 0) : r = 0 ∧ s = 0 ∧ t = 0 := by
  obtain ⟨rfl, rfl⟩ := pair s t fun j => by
    simp only [eliminate]
    linear_combination x i * zero j - x j * zero i
  refine ⟨?_, rfl, rfl⟩
  simpa [pivot] using zero i

/-- The first symbol other than zero. -/
def lead [DecidableEq K] : {m : ℕ} → (Fin m → K) → K
  | 0, _ => 0
  | _ + 1, v => if v 0 = 0 then lead (Fin.tail v) else v 0

/-- A vector divided by its first symbol other than zero. -/
def direction [DecidableEq K] {m : ℕ} (v : Fin m → K) : Fin m → K := (lead v)⁻¹ • v

theorem lead_smul [DecidableEq K] {m : ℕ} {u : K} (u_ne : u ≠ 0) (v : Fin m → K) :
    lead (u • v) = u * lead v := by
  induction m with
  | zero => simp [lead]
  | succ m ih =>
      by_cases v_eq : v 0 = 0
      · have tail : Fin.tail (u • v) = u • Fin.tail v := rfl
        simpa [lead, v_eq, tail] using ih (Fin.tail v)
      · simp [lead, v_eq, u_ne]

theorem direction_smul [DecidableEq K] {m : ℕ} {u : K} (u_ne : u ≠ 0) (v : Fin m → K) :
    direction (u • v) = direction v := by
  rw [direction, lead_smul u_ne, smul_smul, mul_inv, mul_right_comm, inv_mul_cancel₀ u_ne, one_mul,
    direction]

theorem pair_independent [DecidableEq K] {m : ℕ} {v w : Fin m → K} (v_ne : v ≠ 0) (w_ne : w ≠ 0)
    (different : direction v ≠ direction w) {s t : K} (zero : ∀ j, s * v j + t * w j = 0) :
    s = 0 ∧ t = 0 := by
  have of_right : t = 0 → s = 0 := by
    rintro rfl
    obtain ⟨j, v_j⟩ := Function.ne_iff.mp v_ne
    simpa [show v j ≠ 0 from v_j] using zero j
  by_cases t_eq : t = 0
  · exact ⟨of_right t_eq, t_eq⟩
  exfalso
  have multiple : w = (-s / t) • v := by
    funext j
    rw [Pi.smul_apply, smul_eq_mul]
    field_simp
    linear_combination zero j
  have factor_ne : -s / t ≠ 0 := by
    intro factor_eq
    rw [factor_eq, zero_smul] at multiple
    exact w_ne multiple
  exact different (by rw [multiple, direction_smul factor_ne])

end LinearCode
