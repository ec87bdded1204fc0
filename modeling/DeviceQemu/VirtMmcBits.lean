import DeviceQemu.VirtMmcCsd

/-! The field writer of the card registers.
FillCidCsdBits at every position and width. The response has four words, and a shift by 32 or more
has no value. -/
namespace VirtMmcBits

open BitFields VirtMmc VirtMmcCsd

def shiftLeft (value : UInt32) (n : ℕ) : Option UInt32 :=
  if n < u32Bits then some (value <<< UInt32.ofNat n) else none

def shiftRight (value : UInt32) (n : ℕ) : Option UInt32 :=
  if n < u32Bits then some (value >>> UInt32.ofNat n) else none

def orWord (resp : Resp) (index : ℤ) (value : UInt32) : Option Resp :=
  if 0 ≤ index ∧ index < cidLen then
    some (Function.update resp index.toNat (resp index.toNat ||| value))
  else none

/-- FillCidCsdBits with its shifts and its array accesses checked. -/
def fillChecked (resp : Resp) (start bits : ℕ) (value : UInt32) : Option Resp := do
  let index : ℤ := (cidLen : ℤ) - 1 - (start / u32Bits : ℕ)
  let lsb := start % u32Bits
  let low ← shiftLeft value lsb
  let resp ← orWord resp index low
  if u32Bits < lsb + bits then
    let high ← shiftRight value (u32Bits - lsb)
    orWord resp (index - 1) high
  else some resp

/-- A field that FillCidCsdBits can be called for. -/
structure Writable (f : Field) : Prop where
  pos : 1 ≤ f.width
  width : f.width ≤ 32
  stop : f.start + f.width ≤ 128

theorem Writable.reaches {f : Field} (h : Writable f) {value : UInt32}
    (hvalue : value.toNat < 2 ^ f.width) : Reaches f.start f.width value := by
  refine ⟨h.pos, h.width, h.stop, ?_⟩
  by_cases hcarry : 32 < f.start % 32 + f.width
  · exact .inl hcarry
  · exact .inr (lt_of_lt_of_le hvalue (Nat.pow_le_pow_right (by omega) (by omega)))

theorem orWord_eq (resp : Resp) {index : ℤ} {n : ℕ} (hindex : index = n) (hn : n < cidLen)
    (value : UInt32) : orWord resp index value = some (Function.update resp n (resp n ||| value)) := by
  rw [orWord, hindex, if_pos ⟨Int.natCast_nonneg n, Int.ofNat_lt.mpr hn⟩, Int.toNat_natCast]

/-- No check fails: a value that is carried over has a next word, and is not shifted by 32. -/
theorem fillChecked_eq {f : Field} (h : Writable f) (resp : Resp) (value : UInt32) :
    fillChecked resp f.start f.width value = some (fillCidCsdBits resp f.start f.width value) := by
  have hpos := h.pos
  have hwidth := h.width
  have hstop := h.stop
  have hlsb : f.start % 32 < 32 := Nat.mod_lt _ (by omega)
  have hlow : shiftLeft value (f.start % 32) = some (value <<< UInt32.ofNat (f.start % 32)) :=
    if_pos hlsb
  have hindex : ((4 : ℕ) : ℤ) - 1 - (f.start / 32 : ℕ) = (4 - 1 - f.start / 32 : ℕ) := by omega
  have hword : 4 - 1 - f.start / 32 < cidLen := by
    rw [cidLen]
    omega
  simp only [fillChecked, fillCidCsdBits, u32Bits, cidLen, Option.bind_eq_bind, gt_iff_lt] at *
  rw [hlow, Option.bind_some, orWord_eq resp hindex hword, Option.bind_some]
  by_cases hcarry : 32 < f.start % 32 + f.width
  · have hhigh : shiftRight value (32 - f.start % 32) =
        some (value >>> UInt32.ofNat (32 - f.start % 32)) :=
      if_pos (by
        rw [u32Bits]
        omega)
    have hprev : ((4 : ℕ) : ℤ) - 1 - (f.start / 32 : ℕ) - 1 = (4 - 1 - f.start / 32 - 1 : ℕ) := by
      omega
    have hprevWord : 4 - 1 - f.start / 32 - 1 < cidLen := by
      rw [cidLen]
      omega
    simp only [hcarry, hhigh, if_true, Option.bind_some, orWord_eq _ hprev hprevWord]
  · simp only [hcarry, if_false]

theorem testBit_outside {f : Field} {value : UInt32} (hvalue : value.toNat < 2 ^ f.width) (n : ℕ)
    {i : ℕ} (hi : ¬ (f.start ≤ i ∧ i < f.start + f.width)) :
    (put n f.start value.toNat).testBit i = n.testBit i := by
  rw [testBit_put]
  by_cases hlo : f.start ≤ i
  · rw [testBit_of_lt hvalue (by omega), Bool.and_false, Bool.or_false]
  · rw [decide_eq_false hlo, Bool.false_and, Bool.or_false]

theorem fill_beyond (f : Field) (resp : Resp) (value : UInt32) {k : ℕ} (hk : cidLen ≤ k) :
    fillCidCsdBits resp f.start f.width value k = resp k := by
  have hfirst : k ≠ cidLen - 1 - f.start / u32Bits := by
    simp only [cidLen, u32Bits] at hk ⊢
    omega
  have hnext : k ≠ cidLen - 1 - f.start / u32Bits - 1 := by
    simp only [cidLen, u32Bits] at hk ⊢
    omega
  rw [fillCidCsdBits]
  split_ifs
  · rw [Function.update_of_ne hnext, Function.update_of_ne hfirst]
  · rw [Function.update_of_ne hfirst]

/-- The value is in its field, and nothing else has changed. -/
theorem fillCidCsdBits_writes {f : Field} (h : Writable f) {value : UInt32}
    (hvalue : value.toNat < 2 ^ f.width) {resp : Resp} (hclear : f.get (respNat resp) = 0) :
    ∃ t, fillChecked resp f.start f.width value = some t ∧
      fillCidCsdBits resp f.start f.width value = t ∧ f.get (respNat t) = value.toNat ∧
      (∀ i, ¬ (f.start ≤ i ∧ i < f.start + f.width) →
        (respNat t).testBit i = (respNat resp).testBit i) ∧
      ∀ k, cidLen ≤ k → t k = resp k := by
  have hput := respNat_fill (h.reaches hvalue) resp
  refine ⟨_, fillChecked_eq h resp value, rfl, ?_, fun i hi => ?_,
    fun k hk => fill_beyond f resp value hk⟩
  · rw [hput]
    exact @get_put_self (f, value.toNat) hvalue _ hclear
  · rw [hput]
    exact testBit_outside hvalue _ hi

/-- The C_SIZE field lies in two words. -/
theorem fillCidCsdBits_cSize :
    ∃ t, fillChecked (fun _ => 0) 62 12 0xABC = some t ∧ fillCidCsdBits (fun _ => 0) 62 12 0xABC = t ∧
      (⟨62, 12⟩ : Field).get (respNat t) = 0xABC ∧
      (∀ i, ¬ (62 ≤ i ∧ i < 62 + 12) → (respNat t).testBit i = (respNat fun _ => 0).testBit i) ∧
      ∀ k, cidLen ≤ k → t k = 0 :=
  fillCidCsdBits_writes (f := ⟨62, 12⟩) ⟨by decide, by decide, by decide⟩ (by decide) (by decide)

end VirtMmcBits
