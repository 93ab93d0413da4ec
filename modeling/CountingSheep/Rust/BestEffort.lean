/-
# CountingSheep.Rust.BestEffort — floats as `serde_json` reads them

The service builds `serde_json` without its `float_roundtrip` feature, and a float is
then read in three roundings: as many digits as fit 64 bits are rounded to a binary64,
the power of ten is another, and their product or quotient is rounded again. The
result can be a neighbour of the number that was written (`float_moves`).
-/
import CountingSheep.Rust.Reference

namespace CountingSheep.Rust

open Theory Theory.JsonText

set_option autoImplicit false

/-! ## Reading a float -/

/-- How many digits at the end are left out for the others to fit 64 bits. -/
def droppedDigits (digits : Nat) : Nat :=
  if digits < 2 ^ 64 then 0 else Nat.log 10 (digits / 2 ^ 64) + 1

/-- `f64_from_parts`: the magnitude times a power of ten, of which the table has those up
to `1e308`. Below it, at most three steps of `1e-308` lead to zero. -/
def f64FromParts : Nat → Nat → Int → Option Nat
  | 0, k, _ => some k
  | fuel + 1, k, exponent =>
      if exponent.natAbs ≤ 308 then
        let pow := Binary64.ofNat (10 ^ exponent.natAbs)
        some (if 0 ≤ exponent then Binary64.multiply k pow else Binary64.divide k pow)
      else if k = 0 then some k
      else if 0 ≤ exponent then none
      else f64FromParts fuel (Binary64.divide k (Binary64.ofNat (10 ^ 308))) (exponent + 308)

def bestEffortMagnitude (digits : Nat) (exponent : Int) : Option Nat :=
  let dropped := droppedDigits digits
  f64FromParts 4 (Binary64.ofNat (digits / 10 ^ dropped)) (exponent + dropped)

/-- An infinite product is refused. -/
def bestEffort : DecimalReader where
  read negative digits exponent :=
    ((bestEffortMagnitude digits exponent).filter fun k => k < Binary64.infinity).map
      (Binary64.pack negative)
  finite := by
    intro negative digits exponent bits read
    obtain ⟨k, kept, rfl⟩ := Option.map_eq_some_iff.mp read
    exact pack_finite (of_decide_eq_true (Option.filter_eq_some_iff.mp kept).2)

def serdeJson : Crates := withDecimals bestEffort

/-! ## What becomes of a float -/

/-- 2.2247002385327683e-7. -/
def driftingFloat : BitVec 64 := 0x3e8ddc0306436ba8

/-- It comes back from its text as its neighbour, and this as the next one. -/
theorem float_moves : reread bestEffort driftingFloat = some (driftingFloat + 1) ∧
    reread bestEffort (driftingFloat + 1) = some (driftingFloat + 2) := by
  decide +kernel

/-- 2.5, which comes back as it was. -/
def steadyFloat : BitVec 64 := 0x4004000000000000

theorem float_stays : reread bestEffort steadyFloat = some steadyFloat := by
  decide +kernel

end CountingSheep.Rust
