import Mathlib.Algebra.Group.Nat.Defs
import Permission.Binary64

namespace Permission.Binary64

/-!
# The number nearest to an integer

Rounding cuts an integer, counted in units, to at most fifty-three bits and adds
no more than one in the last place.  An integer of sixty-four bits therefore
stays far below the pattern of infinity: the number nearest to it is finite.
-/

theorem roundHalfEven_le
    (numerator denominator : Nat) :
    roundHalfEven numerator denominator ≤ numerator / denominator + 1 := by
  unfold roundHalfEven
  dsimp only
  split
  · exact Nat.le_succ _
  · exact Nat.le_refl _
  · have parity := Nat.mod_lt (numerator / denominator) Nat.two_pos
    omega

/-- A number cut to the bits from its fifty-third one on has no more than these. -/
theorem div_two_pow_log2_lt
    (number : Nat) :
    number / 2 ^ (Nat.log2 number - 52) < 2 * fractionCount := by
  rw [Nat.div_lt_iff_lt_mul (Nat.two_pow_pos _)]
  have precision : 2 * fractionCount = 2 ^ 53 :=
    rfl
  calc
    number < 2 ^ (Nat.log2 number + 1) :=
      Nat.lt_log2_self
    _ ≤ 2 ^ (53 + (Nat.log2 number - 52)) :=
      Nat.pow_le_pow_right Nat.two_pos (by omega)
    _ = 2 * fractionCount * 2 ^ (Nat.log2 number - 52) := by
      rw [precision, Nat.pow_add]

theorem nearestMagnitude_one_le
    (natural : Nat) :
    nearestMagnitude natural 1 ≤
      (Nat.log2 (natural * unitsPerOne) - 52) * fractionCount +
        2 * fractionCount := by
  unfold nearestMagnitude
  dsimp only
  rw [Nat.div_one, Nat.one_shiftLeft]
  have rounded :=
    roundHalfEven_le (natural * unitsPerOne)
      (2 ^ (Nat.log2 (natural * unitsPerOne) - 52))
  have cut := div_two_pow_log2_lt (natural * unitsPerOne)
  omega

/-- Doubling a number adds one bit each time. -/
theorem log2_mul_shiftLeft_lt
    (number bits shift : Nat)
    (bounded : number < 2 ^ bits)
    (positive : 0 < bits) :
    Nat.log2 (number * 1 <<< shift) < bits + shift := by
  by_cases zero : number * 1 <<< shift = 0
  · rw [zero, Nat.log2_zero]
    exact Nat.add_pos_left positive shift
  · rw [Nat.log2_lt zero, Nat.one_shiftLeft, Nat.pow_add]
    exact Nat.mul_lt_mul_of_pos_right bounded (Nat.two_pow_pos shift)

theorem magnitude_ofMagnitude
    {magnitude : Nat}
    (negative : Bool)
    (bounded : magnitude < signCount) :
    (ofMagnitude negative magnitude).magnitude = magnitude := by
  unfold ofMagnitude Binary64.magnitude
  rw [UInt64.toNat_ofNat']
  cases negative <;> simp [signCount] at bounded ⊢ <;> omega

/-- The number nearest to an integer of sixty-four bits is finite. -/
theorem isFinite_ofNatNearest
    {natural : Nat}
    (bounded : natural < 2 ^ 64) :
    (ofNatNearest natural).isFinite = true := by
  have below : nearestMagnitude natural 1 < infinityMagnitude := by
    have scale : Nat.log2 (natural * unitsPerOne) < 64 + 1074 :=
      log2_mul_shiftLeft_lt natural 64 1074 bounded (by omega)
    have rounded := nearestMagnitude_one_le natural
    have places :
        (Nat.log2 (natural * unitsPerOne) - 52) * fractionCount ≤
          1085 * fractionCount :=
      Nat.mul_le_mul_right fractionCount (by omega)
    unfold infinityMagnitude
    unfold fractionCount at rounded places ⊢
    omega
  have patterns : nearestMagnitude natural 1 < signCount :=
    Nat.lt_trans below (by decide)
  unfold ofNatNearest isFinite
  rw [Nat.min_eq_left (Nat.le_of_lt below), magnitude_ofMagnitude false patterns]
  exact decide_eq_true below

end Permission.Binary64
