import DeviceQemu.Uart
import Mathlib.Algebra.Order.Field.Rat
import Mathlib.Tactic.FieldSimp
import Mathlib.Tactic.Linarith
import Mathlib.Tactic.Positivity
import Mathlib.Tactic.Ring

/-! Baud-rate divisors.
The clock divided by sixteen times the baud rate, rounded to 64ths. A fraction that rounds up to a
whole is not carried into the integer part, and an integer part over 16 bits is written all the same. -/
namespace UartBaudrate

open Uart

/-- The registers hold the divisor to the nearest 64th. -/
structure Divides (clk baud : UInt32) (port : UartPl011Port) : Prop where
  ibrd : port.ibrd.toNat < 2 ^ 16
  fbrd : port.fbrd.toNat < 2 ^ 6
  error : |((port.ibrd.toNat : ℚ) + port.fbrd.toNat / 64) - clk.toNat / (16 * baud.toNat)| ≤ 1 / 128

variable {α : Type}

def Right (clk : UInt32) (udd : UartDriverData α) (baud : UInt32) : Prop :=
  (hi35xxSetBaud clk udd baud).1 ≠ .success ∨ Divides clk baud (hi35xxSetBaud clk udd baud).2.port

def roundHalf (n d : ℕ) : ℕ := n / d / 2 + n / d % 2

theorem roundHalf_error {n d : ℕ} (hd : 0 < d) :
    2 * roundHalf n d * d ≤ n + d ∧ n ≤ 2 * roundHalf n d * d + d := by
  have hquot := Nat.div_add_mod n d
  have hrem := Nat.mod_lt n hd
  unfold roundHalf
  obtain heven | hodd := Nat.mod_two_eq_zero_or_one (n / d)
  · have htwice : 2 * (n / d / 2 + n / d % 2) = n / d := by omega
    rw [htwice, Nat.mul_comm]
    omega
  · have htwice : 2 * (n / d / 2 + n / d % 2) = n / d + 1 := by omega
    rw [htwice, Nat.add_mul, Nat.one_mul, Nat.mul_comm]
    omega

theorem roundHalf_lt_iff {n d k : ℕ} (h : n < 2 * k * d) : roundHalf n d < k ↔ n / d ≠ 2 * k - 1 := by
  have hlt : n / d < 2 * k := Nat.div_lt_of_lt_mul (by rwa [Nat.mul_comm] at h)
  unfold roundHalf
  generalize n / d = q at hlt
  omega

section Passed

variable {clk baud : UInt32} (hpos : 0 < baud.toNat) (hmax : baud.toNat ≤ 921600)

section Bound

include hmax

theorem value_toNat : (ibrdCoefficients * baud).toNat = 16 * baud.toNat := by
  rw [UInt32.toNat_mul]
  exact Nat.mod_eq_of_lt (by simp only [ibrdCoefficients, UInt32.reduceToNat]; omega)

theorem scaled_toNat (n : UInt32) (h : n.toNat < 16 * baud.toNat) :
    (fbrdCoefficients * n).toNat = 8 * n.toNat := by
  rw [UInt32.toNat_mul]
  exact Nat.mod_eq_of_lt (by simp only [fbrdCoefficients, UInt32.reduceToNat]; omega)

theorem ibrd_toNat : (clk / (ibrdCoefficients * baud)).toNat = clk.toNat / (16 * baud.toNat) := by
  rw [UInt32.toNat_div, value_toNat hmax]

end Bound

include hpos hmax

theorem fbrd_toNat {value : UInt32}
    (hvalue : value = fbrdCoefficients * (clk % (ibrdCoefficients * baud)) / baud) :
    ((value >>> 1) + (value &&& 1)).toNat
      = roundHalf (8 * (clk.toNat % (16 * baud.toNat))) baud.toNat := by
  have hrem : (clk % (ibrdCoefficients * baud)).toNat = clk.toNat % (16 * baud.toNat) := by
    rw [UInt32.toNat_mod, value_toNat hmax]
  have hquot : value.toNat = 8 * (clk.toNat % (16 * baud.toNat)) / baud.toNat := by
    rw [hvalue, UInt32.toNat_div, scaled_toNat hmax, hrem]
    rw [hrem]
    exact Nat.mod_lt _ (by omega)
  have hlow : (value &&& 1).toNat = value.toNat % 2 := by
    rw [UInt32.toNat_and]
    exact Nat.and_one_is_mod _
  have hhigh : (value >>> 1).toNat = value.toNat / 2 := by
    rw [UInt32.toNat_shiftRight]
    exact Nat.shiftRight_one _
  have hlt := value.toNat_lt
  rw [UInt32.toNat_add, hlow, hhigh, Nat.mod_eq_of_lt (by omega), roundHalf, hquot]

theorem configBaudrate_toNat {udd : UartDriverData α} (hbaud : udd.baudrate = baud) :
    (pl011ConfigBaudrate clk udd).ibrd.toNat = clk.toNat / (16 * baud.toNat) ∧
      (pl011ConfigBaudrate clk udd).fbrd.toNat
        = roundHalf (8 * (clk.toNat % (16 * baud.toNat))) baud.toNat := by
  have htmp : (ibrdCoefficients.toUInt64 * baud.toUInt64).toNat = 16 * baud.toNat := by
    rw [UInt64.toNat_mul]
    exact Nat.mod_eq_of_lt (by simp [ibrdCoefficients]; omega)
  have hpass : ¬ (ibrdCoefficients.toUInt64 * baud.toUInt64 = 0 ∨
      ibrdCoefficients.toUInt64 * baud.toUInt64 > 0xFFFFFFFF) := by
    rintro (hzero | hbig)
    · rw [hzero] at htmp
      exact absurd htmp (by simp; omega)
    · have hnat := UInt64.lt_iff_toNat_lt.mp hbig
      rw [htmp] at hnat
      exact absurd hnat (by simp; omega)
  simp only [pl011ConfigBaudrate, hbaud, if_neg hpass]
  exact ⟨ibrd_toNat hmax, fbrd_toNat hpos hmax rfl⟩

/-- The registers are within a half 64th of the divisor, whether or not they fit. -/
theorem configBaudrate_error {udd : UartDriverData α} (hbaud : udd.baudrate = baud) :
    |(((pl011ConfigBaudrate clk udd).ibrd.toNat : ℚ) + (pl011ConfigBaudrate clk udd).fbrd.toNat / 64)
      - clk.toNat / (16 * baud.toNat)| ≤ 1 / 128 := by
  obtain ⟨hibrd, hfbrd⟩ := configBaudrate_toNat hpos hmax hbaud
  rw [hibrd, hfbrd]
  have herror := @roundHalf_error (8 * (clk.toNat % (16 * baud.toNat))) _ hpos
  have hclk := Nat.div_add_mod clk.toNat (16 * baud.toNat)
  generalize clk.toNat / (16 * baud.toNat) = quot at hclk ⊢
  generalize clk.toNat % (16 * baud.toNat) = rem at hclk herror ⊢
  generalize roundHalf (8 * rem) baud.toNat = fraction at herror ⊢
  have hbaud' : (0 : ℚ) < baud.toNat := Nat.cast_pos.mpr hpos
  have hhigh : (2 * fraction * baud.toNat : ℚ) ≤ 8 * rem + baud.toNat := mod_cast herror.1
  have hlow : (8 * rem : ℚ) ≤ 2 * fraction * baud.toNat + baud.toNat := mod_cast herror.2
  have hdiff : (quot : ℚ) + fraction / 64 - clk.toNat / (16 * baud.toNat)
      = (2 * fraction * baud.toNat - 8 * rem) / (128 * baud.toNat) := by
    rw [← hclk]
    push_cast
    field_simp
    ring
  rw [hdiff, abs_div, abs_of_pos (by positivity : (0 : ℚ) < 128 * baud.toNat),
    div_le_div_iff₀ (by positivity) (by positivity)]
  have habs : |(2 * fraction * baud.toNat - 8 * rem : ℚ)| ≤ baud.toNat :=
    abs_le.mpr ⟨by linarith, by linarith⟩
  linarith

end Passed

theorem fbrd_lt_iff {clk baud : ℕ} (hpos : 0 < baud) :
    roundHalf (8 * (clk % (16 * baud))) baud < 2 ^ 6 ↔ 8 * (clk % (16 * baud)) / baud ≠ 127 := by
  refine roundHalf_lt_iff ?_
  have hrem := Nat.mod_lt clk (Nat.mul_pos (by omega : 0 < 16) hpos)
  omega

/-- A baud rate is refused or divided for exactly when it is out of range, or the integer part fits and
the fraction does not round up to a whole. -/
theorem setBaud_right_iff (clk : UInt32) (udd : UartDriverData α) (baud : UInt32) :
    Right clk udd baud ↔ udd.state ≠ .useable ∨ baud = 0 ∨ configMaxBaudrate < baud ∨
      clk.toNat / (16 * baud.toNat) < 2 ^ 16 ∧
        8 * (clk.toNat % (16 * baud.toNat)) / baud.toNat ≠ 127 := by
  unfold Right hi35xxSetBaud
  by_cases hstate : udd.state = .useable
  · rw [if_neg (not_not.mpr hstate)]
    by_cases hrange : baud > 0 ∧ baud ≤ configMaxBaudrate
    · rw [if_pos hrange]
      have hpos : 0 < baud.toNat := UInt32.lt_iff_toNat_lt.mp hrange.1
      have hmax : baud.toNat ≤ 921600 := UInt32.le_iff_toNat_le.mp hrange.2
      have hregs := @configBaudrate_toNat α clk baud hpos hmax { udd with baudrate := baud } rfl
      have herror := @configBaudrate_error α clk baud hpos hmax { udd with baudrate := baud } rfl
      have hzero : baud ≠ 0 := by
        rintro rfl
        exact absurd hpos (by decide)
      have hdivides :
          Divides clk baud (pl011Config clk { udd with baudrate := baud }).port ↔
          clk.toNat / (16 * baud.toNat) < 2 ^ 16 ∧
            8 * (clk.toNat % (16 * baud.toNat)) / baud.toNat ≠ 127 := by
        rw [← fbrd_lt_iff hpos, ← hregs.1, ← hregs.2]
        exact ⟨fun h => ⟨h.ibrd, h.fbrd⟩, fun h => ⟨h.1, h.2, herror⟩⟩
      simpa [hstate, hzero, UInt32.not_lt.mpr hrange.2] using hdivides
    · rw [if_neg hrange]
      refine iff_of_true (Or.inl HdfStatus.noConfusion) (Or.inr ?_)
      rcases not_and_or.mp hrange with hnot | hnot
      · exact Or.inl (UInt32.le_zero_iff.mp (UInt32.not_lt.mp hnot))
      · exact Or.inr (Or.inl (UInt32.not_le.mp hnot))
  · rw [if_pos hstate]
    exact iff_of_true (Or.inl HdfStatus.noConfusion) (Or.inl hstate)

def opened : UartDriverData Unit := ⟨115200, (), some 0x1000, 1, .useable, true, ⟨0, 0, true⟩⟩

/-- 24 MHz over 16 * 751879 is 1.99499, whose fraction needs a carry; 3 GHz over 16 * 110 needs 21
bits. -/
theorem carry_lost :
    (hi35xxSetBaud 24000000 opened 751879).2.port = ⟨1, 64, true⟩ ∧
    ¬ Right 24000000 opened 751879 ∧ ¬ Right 3000000000 opened 110 := by
  refine ⟨by decide, ?_, ?_⟩
  · rintro (hrefused | hdivides)
    · exact hrefused rfl
    · exact absurd hdivides.fbrd (by decide)
  · rintro (hrefused | hdivides)
    · exact hrefused rfl
    · exact absurd hdivides.ibrd (by decide)

end UartBaudrate
