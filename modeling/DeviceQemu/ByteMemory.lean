import Mathlib.Algebra.Group.Nat.Defs
import Mathlib.Data.List.Basic

/-! A plain array of bytes, and memory of little-endian words seen as one. -/
namespace ByteMemory

def read (m : ℕ → UInt8) (offset n : ℕ) : List UInt8 := (List.range n).map fun k => m (offset + k)

def write (m : ℕ → UInt8) (offset : ℕ) (data : List UInt8) (k : ℕ) : UInt8 :=
  if offset ≤ k then data[k - offset]?.getD (m k) else m k

def fill (m : ℕ → UInt8) (offset n : ℕ) (v : UInt8) (k : ℕ) : UInt8 :=
  if offset ≤ k ∧ k < offset + n then v else m k

def program (m : ℕ → UInt8) (offset : ℕ) (data : List UInt8) (k : ℕ) : UInt8 :=
  if offset ≤ k ∧ k < offset + data.length then m k &&& data.getD (k - offset) 0 else m k

theorem read_write (m : ℕ → UInt8) (offset : ℕ) (data : List UInt8) :
    read (write m offset data) offset data.length = data := by
  apply List.ext_getElem?
  intro k
  by_cases hk : k < data.length
  · simp [read, write, hk]
  · simp [read, hk]

def byteOf (w : UInt32) (i : ℕ) : UInt8 := UInt8.ofNat (w.toNat / 256 ^ i)

def bytes (words : ℕ → UInt32) (k : ℕ) : UInt8 := byteOf (words (k / 4)) (k % 4)

def wordBytes (w : UInt32) : List UInt8 := [byteOf w 0, byteOf w 1, byteOf w 2, byteOf w 3]

def toBytes (ws : List UInt32) : List UInt8 := ws.flatMap wordBytes

@[simp] theorem length_toBytes (ws : List UInt32) : (toBytes ws).length = 4 * ws.length := by
  induction ws with
  | nil => rfl
  | cons w ws ih =>
    simp only [toBytes, List.flatMap_cons, List.length_append, List.length_cons] at ih ⊢
    rw [ih]
    simp only [wordBytes, List.length_cons, List.length_nil]
    omega

theorem getElem?_wordBytes (w : UInt32) {i : ℕ} (hi : i < 4) :
    (wordBytes w)[i]? = some (byteOf w i) := by
  obtain rfl | rfl | rfl | rfl : i = 0 ∨ i = 1 ∨ i = 2 ∨ i = 3 := by omega
  all_goals rfl

theorem getElem?_toBytes (ws : List UInt32) (k : ℕ) :
    (toBytes ws)[k]? = ws[k / 4]?.map fun w => byteOf w (k % 4) := by
  induction ws generalizing k with
  | nil => rfl
  | cons w ws ih =>
    have hcons : toBytes (w :: ws) = wordBytes w ++ toBytes ws := rfl
    rw [hcons]
    by_cases hk : k < 4
    · rw [List.getElem?_append_left hk, getElem?_wordBytes w hk, Nat.div_eq_of_lt hk,
        Nat.mod_eq_of_lt hk]
      rfl
    · have hlen : (wordBytes w).length = 4 := rfl
      rw [List.getElem?_append_right (by omega), ih, hlen, show k / 4 = (k - 4) / 4 + 1 by omega,
        show k % 4 = (k - 4) % 4 by omega]
      rfl

theorem bytes_store (m : ℕ → UInt32) (o : ℕ) (ws : List UInt32) :
    bytes (fun a => if o ≤ a ∧ a < o + ws.length then ws.getD (a - o) 0 else m a) =
      write (bytes m) (4 * o) (toBytes ws) := by
  funext k
  simp only [bytes, write, getElem?_toBytes]
  by_cases hlo : o ≤ k / 4
  · have hsub : (k - 4 * o) / 4 = k / 4 - o := by omega
    have hmod : (k - 4 * o) % 4 = k % 4 := by omega
    rw [if_pos (show 4 * o ≤ k by omega), hsub, hmod]
    by_cases hhi : k / 4 - o < ws.length
    · rw [if_pos (by omega)]
      simp [hhi, List.getD_eq_getElem?_getD]
    · rw [if_neg (by omega)]
      simp [hhi]
  · rw [if_neg (by omega), if_neg (by omega)]

theorem byteOf_and (v w : UInt32) (i : ℕ) : byteOf (v &&& w) i = byteOf v i &&& byteOf w i := by
  have hpow : 256 ^ i = 2 ^ (8 * i) := by
    rw [Nat.pow_mul]
  apply UInt8.toNat_inj.mp
  simp only [byteOf, UInt8.toNat_and, UInt8.toNat_ofNat', UInt32.toNat_and, hpow]
  rw [Nat.and_div_two_pow, Nat.and_mod_two_pow]

theorem bytes_program (m : ℕ → UInt32) (o : ℕ) (ws : List UInt32) :
    bytes (fun a => if o ≤ a ∧ a < o + ws.length then m a &&& ws.getD (a - o) 0 else m a) =
      program (bytes m) (4 * o) (toBytes ws) := by
  funext k
  have hin : (o ≤ k / 4 ∧ k / 4 < o + ws.length) ↔
      (4 * o ≤ k ∧ k < 4 * o + (toBytes ws).length) := by
    rw [length_toBytes]
    omega
  simp only [bytes, program]
  by_cases hk : o ≤ k / 4 ∧ k / 4 < o + ws.length
  · have hsub : (k - 4 * o) / 4 = k / 4 - o := by omega
    have hmod : (k - 4 * o) % 4 = k % 4 := by omega
    have hlt : k / 4 - o < ws.length := by omega
    have hdata : (toBytes ws).getD (k - 4 * o) 0 = byteOf (ws.getD (k / 4 - o) 0) (k % 4) := by
      rw [List.getD_eq_getElem?_getD, getElem?_toBytes, hsub, hmod]
      simp [hlt]
    rw [if_pos hk, if_pos (hin.mp hk), byteOf_and, hdata]
  · rw [if_neg hk, if_neg (mt hin.mpr hk)]

/-- Setting the words of an aligned block to one value of equal bytes fills it. -/
theorem bytes_fill (m : ℕ → UInt32) {n : ℕ} (hn : 0 < n) (block : ℕ) {w : UInt32} {v : UInt8}
    (hv : ∀ i < 4, byteOf w i = v) :
    bytes (fun a => if a / n = block then w else m a) =
      fill (bytes m) (4 * n * block) (4 * n) v := by
  funext k
  have hdiv : k / 4 / n = k / (4 * n) := Nat.div_div_eq_div_mul k 4 n
  have hblock : k / (4 * n) = block ↔ 4 * n * block ≤ k ∧ k < 4 * n * block + 4 * n := by
    rw [Nat.div_eq_iff (by omega)]
    have : block * (4 * n) = 4 * n * block := Nat.mul_comm _ _
    omega
  simp only [bytes, fill, hdiv]
  by_cases hk : k / (4 * n) = block
  · rw [if_pos hk, if_pos (hblock.mp hk)]
    exact hv _ (Nat.mod_lt _ (by omega))
  · rw [if_neg hk, if_neg (mt hblock.mpr hk)]

end ByteMemory
