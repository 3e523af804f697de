import Mathlib.Order.Bounds.Basic
import MolecularTools.Proofs.Binary64.Order
import MolecularTools.Proofs.Table.ReadBack

/-! The sample of lowest energy. A value without an order, such as NaN, takes the place of every
sample before it and loses it to the next one. So what counts are the samples behind the last such
value, and among those the first one that none is below. -/
namespace MolecularTools

/-- The comparison is a total order on the values that compare with themselves. -/
structure Scalar.Ordered (α : Type) [Scalar α] : Prop where
  sides {a b : α} : atMost a b = true → atMost a a = true ∧ atMost b b = true
  total {a b : α} : atMost a a = true → atMost b b = true → atMost a b = true ∨ atMost b a = true
  trans {a b c : α} : atMost a b = true → atMost b c = true → atMost a c = true

theorem Binary64.ordered : Scalar.Ordered Float where
  sides less := by
    obtain ⟨left, right⟩ := isNaN_of_le (of_decide_eq_true less)
    exact ⟨decide_eq_true (le_self_iff.mpr left), decide_eq_true (le_self_iff.mpr right)⟩
  total left right := by
    have left := le_self_iff.mp (of_decide_eq_true left)
    have right := le_self_iff.mp (of_decide_eq_true right)
    exact (le_or_ge left right).imp decide_eq_true decide_eq_true
  trans first second :=
    decide_eq_true (le_trans (of_decide_eq_true first) (of_decide_eq_true second))

namespace Sampling

variable {α : Type} [Scalar α]

/-- The place of the sample that is kept, once `n` have been seen behind the first. -/
def position (E : Nat → α) : Nat → Nat
  | 0 => 0
  | n + 1 => if Scalar.atMost (E (position E n)) (E (n + 1)) then position E n else n + 1

/-- The places from `start` to `stop` that none from there to there is below. -/
def lowestPlaces (E : Nat → α) (start stop : Nat) : Set Nat :=
  {k | start ≤ k ∧ k < stop ∧ ∀ j < stop, start ≤ j → Scalar.atMost (E k) (E j) = true}

theorem lowest_range (f : Nat → Sample α) (n : Nat) :
    lowest ((List.range (n + 1)).map f) = some (f (position (fun i => (f i).energy) n)) := by
  induction n with
  | zero => rfl
  | succ n ih =>
    rw [lowest] at ih ⊢
    rw [List.range_succ, List.map_append, List.foldl_append, ih]
    simp only [List.map_cons, List.map_nil, List.foldl_cons, List.foldl_nil, lower, position]
    split
    · rfl
    · rfl

section

variable {E : Nat → α} {start n k : Nat}

theorem position_le (E : Nat → α) (n : Nat) : position E n ≤ n := by
  induction n with
  | zero => exact Nat.le_refl 0
  | succ n ih =>
    rw [position]
    split
    · exact Nat.le_succ_of_le ih
    · exact Nat.le_refl _

/-- A value without an order is not kept by any, nor does it keep any. -/
theorem position_unordered (ordered : Scalar.Ordered α)
    (unordered : Scalar.atMost (E n) (E n) = false) : position E n = n := by
  cases n with
  | zero => rfl
  | succ n =>
    rw [position, if_neg]
    intro less
    rw [(ordered.sides less).2] at unordered
    contradiction

/-- Behind a value without an order, the search begins anew. -/
theorem position_start (ordered : Scalar.Ordered α)
    (fresh : ∀ m, start = m + 1 → Scalar.atMost (E m) (E m) = false) :
    position E start = start := by
  cases start with
  | zero => rfl
  | succ m =>
    have unordered := fresh m rfl
    rw [position, position_unordered ordered unordered, if_neg]
    intro less
    rw [(ordered.sides less).1] at unordered
    contradiction

theorem isLeast_single (self : Scalar.atMost (E start) (E start) = true) :
    IsLeast (lowestPlaces E start (start + 1)) start := by
  refine ⟨⟨le_rfl, Nat.lt_succ_self start, fun j high low => ?_⟩, fun j there => there.1⟩
  obtain rfl : j = start := by omega
  exact self

/-- One more sample: it is the first lowest one exactly if the one before does not hold. -/
theorem isLeast_succ (ordered : Scalar.Ordered α) (least : IsLeast (lowestPlaces E start (n + 1)) k)
    (self : Scalar.atMost (E (n + 1)) (E (n + 1)) = true) :
    IsLeast (lowestPlaces E start (n + 2))
      (if Scalar.atMost (E k) (E (n + 1)) then k else n + 1) := by
  obtain ⟨⟨low, high, below⟩, first⟩ := least
  split
  · rename_i holds
    refine ⟨⟨low, by omega, fun j inside above => ?_⟩, fun j there => ?_⟩
    · rcases Nat.lt_succ_iff_lt_or_eq.mp inside with before | rfl
      · exact below j before above
      · exact holds
    · obtain ⟨above, -, lowest⟩ := there
      by_cases early : j < n + 1
      · exact first ⟨above, early, fun i inside above => lowest i (by omega) above⟩
      · omega
  · rename_i fails
    have self' := (ordered.sides (below k high low)).1
    have less := (ordered.total self' self).resolve_left fails
    refine ⟨⟨by omega, by omega, fun j inside above => ?_⟩, fun j there => ?_⟩
    · rcases Nat.lt_succ_iff_lt_or_eq.mp inside with before | rfl
      · exact ordered.trans less (below j before above)
      · exact self
    · obtain ⟨above, -, lowest⟩ := there
      by_contra early
      exact fails (ordered.trans (below j (by omega) above) (lowest (n + 1) (by omega) (by omega)))

/-- What is kept is the first lowest sample since the search began. -/
theorem position_least (ordered : Scalar.Ordered α) (started : start ≤ n)
    (fresh : ∀ m, start = m + 1 → Scalar.atMost (E m) (E m) = false)
    (comparable : ∀ i, start ≤ i → i ≤ n → Scalar.atMost (E i) (E i) = true) :
    IsLeast (lowestPlaces E start (n + 1)) (position E n) := by
  induction n, started using Nat.le_induction with
  | base =>
    rw [position_start ordered fresh]
    exact isLeast_single (comparable start le_rfl le_rfl)
  | succ n started ih =>
    have least := ih fun i low high => comparable i low (by omega)
    exact isLeast_succ ordered least (comparable (n + 1) (by omega) le_rfl)

end

/-- The place of the sample that the equilibrium is taken from. -/
def choice (s : Sampling) (p : Potential α) : Nat :=
  position (fun i => p.energy (s.angle i)) (s.points - 1)

section

variable {s : Sampling} {label : String}

theorem choice_lt (enough : 2 ≤ s.points) (p : Potential α) : s.choice p < s.points := by
  have bound := position_le (fun i => p.energy (s.angle i)) (s.points - 1)
  rw [choice]
  omega

/-- The table that an accepted call gives. -/
theorem tabulate_eq (enough : 2 ≤ s.points) (word : isWord label = true) (step : α)
    (p : Potential α) (units : Units) :
    s.tabulate step p label units = .ok
      { label, units
        equilibrium := s.angle (s.choice p)
        samples := (List.range s.points).map fun i =>
          { index := i + 1
            angle := s.angle i
            energy := if s.shift then p.energy (s.angle i) - p.energy (s.angle (s.choice p))
              else p.energy (s.angle i)
            force := s.force step p (s.angle i) } } := by
  have kept : lowest (s.samples step p) = some (s.sample step p (s.choice p)) := by
    have some := lowest_range (s.sample step p) (s.points - 1)
    rw [Nat.sub_add_cancel (by omega)] at some
    exact some
  rw [tabulate, if_neg (Nat.not_lt.mpr enough), word]
  simp only [kept, Bool.not_true, Bool.false_eq_true, if_false]
  cases s.shift with
  | false => rfl
  | true => simp [samples, sample, lowered]

/-- The equilibrium of a table is the angle of the first lowest sample, and a shift takes off the
energy of that sample. Only the samples behind the last NaN take part, or NaN itself if none is
behind it. -/
theorem equilibrium_first_lowest (enough : 2 ≤ s.points) (word : isWord label = true)
    (step : Float) (p : Potential Float) (units : Units) :
    let E i := p.energy (s.angle i)
    ∃ k < s.points, ∃ t, s.tabulate step p label units = .ok t ∧
      t.equilibrium = s.angle k ∧
      (t.samples.map fun q => (q.angle, q.energy)) = ((List.range s.points).map fun i =>
        (s.angle i, if s.shift then E i - E k else E i)) ∧
      ((∀ i < s.points, (E i).isNaN = false) → IsLeast (lowestPlaces E 0 s.points) k) ∧
      ∀ m < s.points, (E m).isNaN = true →
        (∀ i < s.points, m < i → (E i).isNaN = false) →
          if m + 1 = s.points then k = m else IsLeast (lowestPlaces E (m + 1) s.points) k := by
  intro E
  have comparable {i : Nat} (number : (E i).isNaN = false) : Scalar.atMost (E i) (E i) = true :=
    decide_eq_true (Binary64.le_self_iff.mpr number)
  have unordered {i : Nat} (nan : (E i).isNaN = true) : Scalar.atMost (E i) (E i) = false :=
    decide_eq_false fun less => by
      rw [Binary64.le_self_iff.mp less] at nan
      contradiction
  have last : s.points - 1 + 1 = s.points := by omega
  refine ⟨s.choice p, choice_lt enough p, _, tabulate_eq enough word step p units, rfl, ?_, ?_, ?_⟩
  · rw [List.map_map]
    rfl
  · intro numbers
    have least := position_least (E := E) Binary64.ordered (Nat.zero_le (s.points - 1))
      (fun m zero => by omega) fun i _ high => comparable (numbers i (by omega))
    rwa [last] at least
  · intro m inside nan numbers
    split
    · rename_i atEnd
      obtain rfl : m = s.points - 1 := by omega
      exact position_unordered Binary64.ordered (unordered nan)
    · have least := position_least (E := E) Binary64.ordered (by omega : m + 1 ≤ s.points - 1)
        (fun m' same => by
          obtain rfl : m = m' := by omega
          exact unordered nan) fun i low high => comparable (numbers i (by omega) (by omega))
      rwa [last] at least

/-- Four samples with NaN as the second one. The first sample is the lowest, but it is lost; the
two behind NaN are equal. -/
theorem lowest_behind_nan : ∃ t,
    Sampling.tabulate { points := 4, shift := true } differenceStep
      { energy := fun θ => if θ ≤ 30 then 1 else if θ ≤ 90 then 0 / 0 else 2, force := fun _ => 0 }
      "STEP" .real = .ok t ∧ t.equilibrium = 120 ∧
    (t.samples.map fun q => (q.angle, q.energy)) = [(0, -1), (60, 0 / 0), (120, 0), (180, 0)] := by
  have word : isWord "STEP" = true := by decide +kernel
  obtain ⟨k, -, t, tabulated, equilibrium, values, -, behind⟩ :=
    equilibrium_first_lowest (s := { points := 4, shift := true }) (by decide) word differenceStep
      { energy := fun θ => if θ ≤ 30 then 1 else if θ ≤ 90 then 0 / 0 else 2, force := fun _ => 0 }
      .real
  have least := behind 1 (by decide) (by decide +kernel) (by decide +kernel)
  rw [if_neg (by decide)] at least
  obtain rfl : k = 2 := le_antisymm
    (least.2 ⟨by decide, by decide, by decide +kernel⟩) least.1.1
  exact ⟨t, tabulated, equilibrium.trans (by decide +kernel), values.trans (by decide +kernel)⟩

end

end Sampling

end MolecularTools
