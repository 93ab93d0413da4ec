/-
# CountingSheep.Theory.Binary64 — binary64 numbers as decimals, and back

A finite binary64 of magnitude bits `k` is `units k` times `2 ^ -unitPlaces`. As a
decimal it is `digits k * 10 ^ -places k`, exactly, and `shortest k` in as few digits
as tell it from the others. `ofDecimal` reads any decimal, rounding to nearest with
ties to even, and refuses what overflows; `multiply` and `divide` round the same way.

* `shortest_rounds`: the shortest decimal is rounded to the number it stands for.
* `ofDecimal_scaled`: trailing zeros of a decimal do not count.
-/
import Mathlib.Data.Nat.Log
import Mathlib.Tactic.Positivity
import Mathlib.Tactic.Ring

namespace CountingSheep.Theory.Binary64

set_option autoImplicit false

/-! ## Magnitudes -/

/-- The significand of magnitude bits, with the leading one of a normal number. -/
def significand (k : Nat) : Nat := if k < 2 ^ 52 then k else 2 ^ 52 + k % 2 ^ 52

/-- The unit is the least positive number, `2 ^ -1074`. -/
def unitPlaces : Nat := 1074

/-- How many times the unit is doubled for the significand to count it. -/
def scale (k : Nat) : Nat := k / 2 ^ 52 - 1

/-- A magnitude in units. -/
def units (k : Nat) : Nat := significand k * 2 ^ scale k

theorem magnitude_eq (k : Nat) : scale k * 2 ^ 52 + significand k = k := by
  simp only [scale, significand]
  split <;> omega

theorem significand_range (k : Nat) :
    significand k < 2 ^ 53 ∧ (scale k = 0 ∨ 2 ^ 52 ≤ significand k) := by
  simp only [scale, significand]
  split <;> omega

/-! ## Reading: round to nearest, ties to even -/

def roundHalfEven (a b : Nat) : Nat :=
  if 2 * (a % b) < b then a / b
  else if b < 2 * (a % b) then a / b + 1
  else a / b + a / b % 2

theorem roundHalfEven_exact {b m : Nat} (positive : 0 < b) : roundHalfEven (b * m) b = m := by
  simp [roundHalfEven, positive]

theorem roundHalfEven_scaled {c : Nat} (positive : 0 < c) (a b : Nat) :
    roundHalfEven (c * a) (c * b) = roundHalfEven a b := by
  have twice : 2 * (c * (a % b)) = c * (2 * (a % b)) := by ring
  simp only [roundHalfEven, Nat.mul_mod_mul_left, Nat.mul_div_mul_left _ _ positive, twice,
    Nat.mul_lt_mul_left positive]

/-- The magnitude nearest to `num / den` units. -/
def roundUnits (num den : Nat) : Nat :=
  let doublings := Nat.log 2 (num / den) - 52
  doublings * 2 ^ 52 + roundHalfEven num (den * 2 ^ doublings)

theorem log_significand {m s : Nat} (below : m < 2 ^ 53) (normal : s = 0 ∨ 2 ^ 52 ≤ m) :
    Nat.log 2 (m * 2 ^ s) - 52 = s := by
  rcases normal with rfl | normal
  · have small : Nat.log 2 m < 53 := Nat.log_lt_of_lt_pow' (by decide) below
    simp only [pow_zero, mul_one]
    omega
  · have exact_log : Nat.log 2 (m * 2 ^ s) = 52 + s := by
      apply Nat.log_eq_of_pow_le_of_lt_pow
      · rw [pow_add]
        exact Nat.mul_le_mul_right _ normal
      · have step : 2 ^ (52 + s + 1) = 2 ^ 53 * 2 ^ s := by rw [← pow_add]; congr 1; omega
        rw [step]
        exact Nat.mul_lt_mul_of_pos_right below (by positivity)
    omega

theorem roundUnits_scaled {c : Nat} (positive : 0 < c) (num den : Nat) :
    roundUnits (c * num) (c * den) = roundUnits num den := by
  simp only [roundUnits, Nat.mul_div_mul_left _ _ positive, Nat.mul_assoc,
    roundHalfEven_scaled positive]

/-- A magnitude that is exactly on the grid is not moved. -/
theorem roundUnits_exact {k den : Nat} (positive : 0 < den) : roundUnits (den * units k) den = k := by
  obtain ⟨below, normal⟩ := significand_range k
  have quotient : den * (significand k * 2 ^ scale k) / den = significand k * 2 ^ scale k :=
    Nat.mul_div_cancel_left _ positive
  have rearranged : den * (significand k * 2 ^ scale k) = den * 2 ^ scale k * significand k := by
    ring
  simp only [roundUnits, units, quotient, log_significand below normal]
  rw [rearranged, roundHalfEven_exact (by positivity)]
  exact magnitude_eq k

/-! ## Decimals -/

/-- Magnitude bits of an infinity: every finite magnitude is below. -/
def infinity : Nat := 2047 * 2 ^ 52

/-- Sign and magnitude as bits. -/
def pack (negative : Bool) (k : Nat) : BitVec 64 :=
  .ofNat 64 (k + if negative then 2 ^ 63 else 0)

def isNegative (bits : BitVec 64) : Bool := 2 ^ 63 ≤ bits.toNat

def magnitude (bits : BitVec 64) : Nat := bits.toNat % 2 ^ 63

theorem pack_fields (bits : BitVec 64) : pack (isNegative bits) (magnitude bits) = bits := by
  have width := bits.isLt
  apply BitVec.eq_of_toNat_eq
  simp only [pack, isNegative, magnitude, BitVec.toNat_ofNat, decide_eq_true_eq]
  split <;> omega

/-- The magnitude nearest to `digits * 10 ^ exponent`. -/
def roundDecimal (digits : Nat) (exponent : Int) : Nat :=
  roundUnits (digits * 10 ^ exponent.toNat * 2 ^ unitPlaces) (10 ^ (-exponent).toNat)

/-- `± digits * 10 ^ exponent`, rounded; `none` if it overflows. -/
def ofDecimal (negative : Bool) (digits : Nat) (exponent : Int) : Option (BitVec 64) :=
  let k := roundDecimal digits exponent
  if k < infinity then some (pack negative k) else none

/-- More trailing zeros, and an exponent smaller by as many. -/
theorem roundDecimal_scaled (digits zeros : Nat) (exponent : Int) :
    roundDecimal (digits * 10 ^ zeros) (exponent - zeros) = roundDecimal digits exponent := by
  -- Both are the quotient with its numerator and denominator multiplied by a power of ten.
  have common : ∃ more : Nat, zeros + (exponent - zeros).toNat = more + exponent.toNat ∧
      (-(exponent - zeros)).toNat = more + (-exponent).toNat := by
    rcases Int.le_total 0 exponent with up | down
    · exact ⟨(-(exponent - zeros)).toNat, by omega, by omega⟩
    · exact ⟨zeros, by omega, by omega⟩
  obtain ⟨more, up, down⟩ := common
  have raised : digits * 10 ^ zeros * 10 ^ (exponent - zeros).toNat * 2 ^ unitPlaces =
      10 ^ more * (digits * 10 ^ exponent.toNat * 2 ^ unitPlaces) := by
    calc digits * 10 ^ zeros * 10 ^ (exponent - zeros).toNat * 2 ^ unitPlaces
        = digits * 10 ^ (zeros + (exponent - zeros).toNat) * 2 ^ unitPlaces := by
          rw [pow_add, Nat.mul_assoc digits]
      _ = digits * 10 ^ (more + exponent.toNat) * 2 ^ unitPlaces := by rw [up]
      _ = 10 ^ more * (digits * 10 ^ exponent.toNat * 2 ^ unitPlaces) := by rw [pow_add]; ring
  rw [roundDecimal, roundDecimal, raised, down, pow_add]
  exact roundUnits_scaled (Nat.pow_pos (by decide)) _ _

theorem ofDecimal_scaled (negative : Bool) (digits zeros : Nat) (exponent : Int) :
    ofDecimal negative (digits * 10 ^ zeros) (exponent - zeros) =
      ofDecimal negative digits exponent := by
  rw [ofDecimal, ofDecimal, roundDecimal_scaled]

/-- How many decimal places a magnitude needs. -/
def places (k : Nat) : Nat := unitPlaces - scale k

/-- The digits of a magnitude with `places` of them after the point. -/
def digits (k : Nat) : Nat := significand k * 2 ^ (scale k - unitPlaces) * 5 ^ places k

theorem shifted_decimal (m s u : Nat) :
    m * 2 ^ (s - u) * 5 ^ (u - s) * 2 ^ u = 10 ^ (u - s) * (m * 2 ^ s) := by
  have powers : 2 ^ (s - u) * 2 ^ u = 2 ^ (u - s) * 2 ^ s := by
    rw [← pow_add, ← pow_add]
    congr 1
    omega
  have tens : 10 ^ (u - s) = 5 ^ (u - s) * 2 ^ (u - s) := by rw [← Nat.mul_pow]
  calc m * 2 ^ (s - u) * 5 ^ (u - s) * 2 ^ u
      = m * 5 ^ (u - s) * (2 ^ (s - u) * 2 ^ u) := by ring
    _ = 10 ^ (u - s) * (m * 2 ^ s) := by rw [powers, tens]; ring

theorem digits_units (k : Nat) : digits k * 2 ^ unitPlaces = 10 ^ places k * units k :=
  shifted_decimal (significand k) (scale k) unitPlaces

theorem digits_rounds (k : Nat) : roundDecimal (digits k) (-(places k : Int)) = k := by
  have up : (-(places k : Int)).toNat = 0 := by omega
  have down : (- -(places k : Int)).toNat = places k := by omega
  simp only [roundDecimal, up, down, pow_zero, mul_one, digits_units,
    roundUnits_exact (Nat.pow_pos (by decide : 0 < 10))]

/-! ## The shortest decimal -/

/-- The decimals of `more + 1` digits on either side of a magnitude, the nearer first. A
carry into one digit more is written without its zero. -/
def candidates (k more : Nat) : List (Nat × Int) :=
  let dropped := Nat.log 10 (digits k) - more
  let below := digits k / 10 ^ dropped
  let exponent : Int := dropped - places k
  let above := if (below + 1) % 10 = 0 then ((below + 1) / 10, exponent + 1) else (below + 1, exponent)
  if 2 * (digits k % 10 ^ dropped) ≤ 10 ^ dropped then [(below, exponent), above]
  else [above, (below, exponent)]

/-- The first of the candidates, in the order of their length, that is rounded to the
magnitude; seventeen digits are always enough. -/
def shortest (k : Nat) : Nat × Int :=
  if k = 0 then (0, 0)
  else
    (((List.range 17).flatMap (candidates k)).find? fun c => roundDecimal c.1 c.2 = k).getD
      (digits k, -places k)

/-- **The shortest decimal is rounded to its number.** -/
theorem shortest_rounds (k : Nat) : roundDecimal (shortest k).1 (shortest k).2 = k := by
  unfold shortest
  split
  · next zero =>
      subst zero
      simp [roundDecimal, roundUnits, roundHalfEven]
  · cases found : ((List.range 17).flatMap (candidates k)).find? fun c => roundDecimal c.1 c.2 = k with
    | none => exact digits_rounds k
    | some c => simpa using List.find?_some found

theorem ofDecimal_shortest {bits : BitVec 64} (finite : magnitude bits < infinity) :
    ofDecimal (isNegative bits) (shortest (magnitude bits)).1 (shortest (magnitude bits)).2 =
      some bits := by
  simp only [ofDecimal, shortest_rounds, finite, if_true, pack_fields]

/-! ## Arithmetic on magnitudes -/

def ofNat (n : Nat) : Nat := roundUnits (n * 2 ^ unitPlaces) 1

def multiply (j k : Nat) : Nat := roundUnits (units j * units k) (2 ^ unitPlaces)

def divide (j k : Nat) : Nat := roundUnits (units j * 2 ^ unitPlaces) (units k)

end CountingSheep.Theory.Binary64
