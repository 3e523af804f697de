import Mathlib.Algebra.Order.Field.Power
import Mathlib.Data.Rat.Floor
import Mathlib.Tactic.Ring
import MolecularTools.Decimal.Shortest
import MolecularTools.Proofs.Json.Scalars

/-! Decimal numerals and the numbers that they denote. A text is that of at most one numeral. -/
namespace MolecularTools.Decimal

/-- A point and the fraction behind it; without a fraction there is no point. -/
def pointed (fraction : List Char) : List Char := if fraction = [] then [] else '.' :: fraction

structure Power where
  down : Bool
  digits : List Char

namespace Power

def text (p : Power) : List Char := 'e' :: (if p.down then '-' else '+') :: p.digits

def value (p : Power) : ℤ :=
  if p.down then -(Nat.ofDigitChars 10 p.digits 0 : ℤ) else Nat.ofDigitChars 10 p.digits 0

theorem text_injective {p q : Power} (same : p.text = q.text) : p = q := by
  have signs : ∀ a b : Bool, (if a then '-' else '+') = (if b then '-' else '+') → a = b := by
    decide
  obtain ⟨down, digits⟩ := p
  obtain ⟨down', digits'⟩ := q
  obtain ⟨-, same⟩ := List.cons.inj same
  obtain ⟨sign, same⟩ := List.cons.inj same
  exact congrArg₂ Power.mk (signs _ _ sign) same

end Power

/-- A decimal number in its parts. -/
structure Numeral where
  negative : Bool
  whole : List Char
  fraction : List Char
  power : Option Power

namespace Numeral

def rest (n : Numeral) : List Char := pointed n.fraction ++ n.power.elim [] Power.text

def text (n : Numeral) : List Char := sign n.negative ++ (n.whole ++ n.rest)

/-- The number without its sign and its power of ten. -/
def mantissa (n : Numeral) : ℚ :=
  Nat.ofDigitChars 10 (n.whole ++ n.fraction) 0 / 10 ^ n.fraction.length

def value (n : Numeral) : ℚ :=
  (if n.negative then -1 else 1) * n.mantissa * 10 ^ n.power.elim 0 Power.value

structure Formed (n : Numeral) : Prop where
  begun : n.whole ≠ []
  whole : ∀ c ∈ n.whole, c.isDigit = true
  fraction : ∀ c ∈ n.fraction, c.isDigit = true
  power : ∀ p ∈ n.power, p.digits ≠ [] ∧ ∀ c ∈ p.digits, c.isDigit = true

variable {m n : Numeral}

theorem Formed.span (formed : n.Formed) :
    (n.whole ++ n.rest).span Char.isDigit = (n.whole, n.rest) := by
  refine Text.span_append formed.whole fun c first => ?_
  obtain ⟨negative, whole, fraction, power⟩ := n
  rcases fraction with _ | ⟨d, fraction⟩
  · rcases power with _ | p
    · contradiction
    · cases first
      rfl
  · cases first
    rfl

theorem Formed.negative_eq (formed : n.Formed) : n.negative = (n.text.head? == some '-') := by
  obtain ⟨negative, whole, fraction, power⟩ := n
  cases negative with
  | true => rfl
  | false =>
    obtain ⟨c, cs, rfl⟩ := List.exists_cons_of_ne_nil formed.begun
    have digit := formed.whole c List.mem_cons_self
    symm
    rw [beq_eq_false_iff_ne]
    rintro minus
    cases minus
    exact absurd digit (by decide)

theorem elim_text_injective {p q : Option Power}
    (same : p.elim [] Power.text = q.elim [] Power.text) : p = q := by
  cases p with
  | none => cases q with
    | none => rfl
    | some q => contradiction
  | some p => cases q with
    | none => contradiction
    | some q => rw [Power.text_injective same]

theorem elim_text_ne_pointed (p : Option Power) (c : Char) (fraction rest : List Char) :
    p.elim [] Power.text ≠ pointed (c :: fraction) ++ rest := by
  intro same
  cases p with
  | none => contradiction
  | some p => exact absurd (List.cons.inj same).1 (by decide)

theorem span_power {fraction : List Char} (digits : ∀ c ∈ fraction, c.isDigit = true)
    (p : Option Power) : (fraction ++ p.elim [] Power.text).span Char.isDigit =
      (fraction, p.elim [] Power.text) := by
  refine Text.span_append digits fun c first => ?_
  cases p with
  | none => contradiction
  | some p =>
    cases first
    rfl

theorem rest_injective {fraction fraction' : List Char} {p q : Option Power}
    (digits : ∀ c ∈ fraction, c.isDigit = true) (digits' : ∀ c ∈ fraction', c.isDigit = true)
    (same : pointed fraction ++ p.elim [] Power.text = pointed fraction' ++ q.elim [] Power.text) :
    fraction = fraction' ∧ p = q := by
  cases fraction with
  | nil => cases fraction' with
    | nil => exact ⟨rfl, elim_text_injective same⟩
    | cons c fraction' => exact absurd same (elim_text_ne_pointed _ _ _ _)
  | cons c fraction => cases fraction' with
    | nil => exact absurd same.symm (elim_text_ne_pointed _ _ _ _)
    | cons c' fraction' =>
      have behind : c :: fraction ++ p.elim [] Power.text =
          c' :: fraction' ++ q.elim [] Power.text := (List.cons.inj same).2
      have parts := congrArg (List.span Char.isDigit) behind
      rw [span_power digits, span_power digits', Prod.mk.injEq] at parts
      exact ⟨parts.1, elim_text_injective parts.2⟩

/-- A text is written by one numeral alone. -/
theorem text_injective (one : m.Formed) (other : n.Formed) (same : m.text = n.text) : m = n := by
  have signs : m.negative = n.negative := by rw [one.negative_eq, other.negative_eq, same]
  rw [text, text, signs] at same
  have parts := congrArg (List.span Char.isDigit) (List.append_cancel_left same)
  rw [one.span, other.span, Prod.mk.injEq] at parts
  obtain ⟨fraction, power⟩ := rest_injective one.fraction other.fraction parts.2
  cases m
  cases n
  simp only [mk.injEq]
  exact ⟨signs, parts.1, fraction, power⟩

end Numeral

end MolecularTools.Decimal
