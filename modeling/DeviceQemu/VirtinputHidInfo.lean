import DeviceQemu.VersionedReads
import DeviceQemu.Virtinput
import Mathlib.Data.List.Range

/-! The description of an input device.
VirtinFillHidInfo reads it from the configuration space, where a selection shows one item at a
time, and starts again when the generation has changed. The riscv32 driver reads no axes, and
gives up at an event type that it does not know. -/
namespace VirtinputHidInfo

open VersionedReads
open Virtinput (Platform)

def cfgIdDevids : UInt8 := 0x03
def cfgEvBits : UInt8 := 0x11
def cfgAbsInfo : UInt8 := 0x12
def virtinPropLen : ℕ := 128

structure VirtinAbsinfo where
  min : UInt32
  max : UInt32
  fuzz : UInt32
  flat : UInt32
  res : UInt32
  deriving DecidableEq, Repr

structure VirtinDevids where
  bus : UInt16
  vendor : UInt16
  product : UInt16
  version : UInt16
  deriving DecidableEq, Repr

/-- What a selection shows; the last three are readings of one union. An item that the device
does not have has size 0. -/
structure Item where
  size : UInt8
  bitmap : ℕ → UInt8
  abs : VirtinAbsinfo
  ids : VirtinDevids

abbrev VirtinConfig := UInt8 → UInt8 → Item

inductive Code where
  | key
  | rel
  | abs
  deriving DecidableEq, Repr

def Code.evType : Code → ℕ
  | .key => 1
  | .rel => 2
  | .abs => 3

def codeOf : ℕ → Option Code
  | 1 => some .key
  | 2 => some .rel
  | 3 => some .abs
  | _ => none

theorem codeOf_eq_some {e : ℕ} {code : Code} : codeOf e = some code ↔ e = code.evType := by
  constructor
  · intro h
    unfold codeOf at h
    split at h <;> cases h <;> rfl
  · rintro rfl
    cases code <;> rfl

/-- HDF_EV_CNT, and HDF_KEY_CNT, HDF_REL_CNT and HDF_ABS_CNT. -/
structure Hdf where
  evCnt : ℕ
  cnt : Code → ℕ

def Hdf.len (hdf : Hdf) (code : Code) : ℕ := min ((hdf.cnt code + 7) / 8) virtinPropLen

structure AxisInfo where
  axis : Int32
  min : Int32
  max : Int32
  fuzz : Int32
  flat : Int32
  range : Int32
  deriving DecidableEq, Repr

/-- `code` is keyCode, relCode and absCode. -/
structure HidInfo where
  ids : VirtinDevids
  eventType : UInt32
  code : Code → ℕ → UInt8
  axisInfo : ℕ → AxisInfo

def HidInfo.zero : HidInfo := ⟨⟨0, 0, 0, 0⟩, 0, fun _ _ => 0, fun _ => ⟨0, 0, 0, 0, 0, 0⟩⟩

def fillHidDevIds (s : HidInfo) : Reads VirtinConfig HidInfo := do
  let size ← Reads.get fun conf => (conf cfgIdDevids 0).size
  if size = 0 then pure s
  else do
    let bus ← Reads.get fun conf => (conf cfgIdDevids 0).ids.bus
    let vendor ← Reads.get fun conf => (conf cfgIdDevids 0).ids.vendor
    let product ← Reads.get fun conf => (conf cfgIdDevids 0).ids.product
    let version ← Reads.get fun conf => (conf cfgIdDevids 0).ids.version
    pure { s with ids := ⟨bus, vendor, product, version⟩ }

def copyBitmap (evType : UInt8) (len : ℕ) (dest : ℕ → UInt8) : Reads VirtinConfig (ℕ → UInt8) :=
  (List.range len).foldlM (fun (dest : ℕ → UInt8) i => do
    let byte ← Reads.get fun conf => (conf cfgEvBits evType).bitmap i
    pure (Function.update dest i byte)) dest

/-- The round of VirtinFillHidCodeBitmap for one event type. -/
def fillEvType (platform : Platform) (hdf : Hdf) (s : HidInfo) (evType : ℕ) :
    Reads VirtinConfig (Bool × HidInfo) := do
  let size ← Reads.get fun conf => (conf cfgEvBits (UInt8.ofNat evType)).size
  if size = 0 then pure (true, s)
  else
    match codeOf evType with
    | none => pure (platform = .liteosA, s)
    | some code => do
      let bits ← copyBitmap (UInt8.ofNat evType) (hdf.len code) (s.code code)
      pure (true, { s with
        eventType := s.eventType ||| 1 <<< UInt32.ofNat evType
        code := Function.update s.code code bits })

def fillHidCodeBitmap (platform : Platform) (hdf : Hdf) (s : HidInfo) :
    Reads VirtinConfig (Bool × HidInfo) :=
  (List.range hdf.evCnt).foldlM
    (fun (r : Bool × HidInfo) evType => if !r.1 then pure r else fillEvType platform hdf r.2 evType)
    (true, { s with eventType := 0 })

def axisOf (i : ℕ) (abs : VirtinAbsinfo) : AxisInfo :=
  ⟨Int32.ofNat i, abs.min.toInt32, abs.max.toInt32, abs.fuzz.toInt32, abs.flat.toInt32, abs.res.toInt32⟩

def fillAxis (s : HidInfo) (i : ℕ) : Reads VirtinConfig HidInfo := do
  let size ← Reads.get fun conf => (conf cfgAbsInfo (UInt8.ofNat i)).size
  if size = 0 then pure s
  else do
    let min ← Reads.get fun conf => (conf cfgAbsInfo (UInt8.ofNat i)).abs.min
    let max ← Reads.get fun conf => (conf cfgAbsInfo (UInt8.ofNat i)).abs.max
    let fuzz ← Reads.get fun conf => (conf cfgAbsInfo (UInt8.ofNat i)).abs.fuzz
    let flat ← Reads.get fun conf => (conf cfgAbsInfo (UInt8.ofNat i)).abs.flat
    let res ← Reads.get fun conf => (conf cfgAbsInfo (UInt8.ofNat i)).abs.res
    pure { s with axisInfo := Function.update s.axisInfo i (axisOf i ⟨min, max, fuzz, flat, res⟩) }

def fillHidAbsInfo (hdf : Hdf) (s : HidInfo) : Reads VirtinConfig HidInfo :=
  (List.range (hdf.cnt .abs)).foldlM fillAxis s

def fillOnce (platform : Platform) (hdf : Hdf) (s : HidInfo) : Reads VirtinConfig (Bool × HidInfo) := do
  let s ← fillHidDevIds s
  let (ok, s) ← fillHidCodeBitmap platform hdf s
  if !ok then pure (false, s)
  else
    match platform with
    | .liteosA => do
      let s ← fillHidAbsInfo hdf s
      pure (true, s)
    | .riscv32 => pure (true, s)

/-- What it returns, the description, the time at the return and the last pass. -/
def virtinFillHidInfo (platform : Platform) (hdf : Hdf) (src : Source VirtinConfig UInt32) (fuel t : ℕ) :
    Option (Bool × HidInfo × ℕ × Pass HidInfo) :=
  retry src (fillOnce platform hdf) fuel HidInfo.zero t

theorem fillHidDevIds_eval (s : HidInfo) (conf : VirtinConfig) :
    (fillHidDevIds s).eval conf =
      if (conf cfgIdDevids 0).size = 0 then s else { s with ids := (conf cfgIdDevids 0).ids } := by
  unfold fillHidDevIds
  rw [Reads.eval_bind, Reads.eval_get]
  split_ifs <;> rfl

theorem copyBitmap_eval (evType : UInt8) (len : ℕ) (dest : ℕ → UInt8) (conf : VirtinConfig) :
    (copyBitmap evType len dest).eval conf =
      fun i => if i < len then (conf cfgEvBits evType).bitmap i else dest i := by
  unfold copyBitmap
  rw [Reads.eval_foldlM]
  induction len with
  | zero => simp
  | succ n ih =>
    rw [List.range_succ, List.foldl_append, ih]
    funext i
    by_cases hi : i = n
    · simp [hi]
    · have hlt : i < n + 1 ↔ i < n := by omega
      simp [hi, hlt]

def hasAxis (conf : VirtinConfig) (i : ℕ) : Bool := (conf cfgAbsInfo (UInt8.ofNat i)).size ≠ 0

theorem fillAxis_eval (s : HidInfo) (i : ℕ) (conf : VirtinConfig) :
    (fillAxis s i).eval conf =
      { s with
        axisInfo := fun k =>
          if k = i ∧ hasAxis conf i then axisOf i (conf cfgAbsInfo (UInt8.ofNat i)).abs
          else s.axisInfo k } := by
  unfold fillAxis hasAxis
  rw [Reads.eval_bind, Reads.eval_get]
  split_ifs with hsize
  · simp [hsize]
  · simp only [Reads.eval_bind, Reads.eval_get, Reads.eval_pure]
    congr 1
    funext k
    by_cases hk : k = i <;> simp [hk, hsize]

theorem fillHidAbsInfo_eval (hdf : Hdf) (s : HidInfo) (conf : VirtinConfig) :
    (fillHidAbsInfo hdf s).eval conf =
      { s with
        axisInfo := fun i =>
          if i < hdf.cnt .abs ∧ hasAxis conf i then axisOf i (conf cfgAbsInfo (UInt8.ofNat i)).abs
          else s.axisInfo i } := by
  unfold fillHidAbsInfo
  rw [Reads.eval_foldlM]
  induction hdf.cnt .abs with
  | zero => simp
  | succ n ih =>
    rw [List.range_succ, List.foldl_append, ih, List.foldl_cons, List.foldl_nil, fillAxis_eval]
    congr 1
    funext i
    by_cases hi : i = n
    · subst hi
      simp
    · have hlt : i < n + 1 ↔ i < n := by omega
      simp [hi, hlt]

def hasBits (conf : VirtinConfig) (evType : ℕ) : Bool :=
  (conf cfgEvBits (UInt8.ofNat evType)).size ≠ 0

def stops (platform : Platform) (conf : VirtinConfig) (evType : ℕ) : Bool :=
  hasBits conf evType && codeOf evType = none && platform = .riscv32

def Reached (platform : Platform) (conf : VirtinConfig) (n : ℕ) : Prop :=
  ∀ evType < n, stops platform conf evType = false

instance (platform : Platform) (conf : VirtinConfig) (n : ℕ) : Decidable (Reached platform conf n) := by
  unfold Reached
  infer_instance

/-- A pass over the first `n` event types reads the bitmap. -/
def Found (platform : Platform) (conf : VirtinConfig) (n : ℕ) (code : Code) : Prop :=
  code.evType < n ∧ hasBits conf code.evType ∧ Reached platform conf code.evType

theorem reached_succ {platform : Platform} {conf : VirtinConfig} {n : ℕ} :
    Reached platform conf (n + 1) ↔ Reached platform conf n ∧ stops platform conf n = false := by
  constructor
  · intro h
    exact ⟨fun e he => h e (by omega), h n (by omega)⟩
  · rintro ⟨h, hn⟩ e he
    rcases Nat.lt_succ_iff_lt_or_eq.mp he with hlt | rfl
    · exact h e hlt
    · exact hn

theorem fillEvType_eval (platform : Platform) (hdf : Hdf) (s : HidInfo) (n : ℕ) (conf : VirtinConfig) :
    (fillEvType platform hdf s n).eval conf =
      (!stops platform conf n,
        { s with
          eventType := if hasBits conf n ∧ codeOf n ≠ none then
            s.eventType ||| 1 <<< UInt32.ofNat n else s.eventType
          code := fun code i => if hasBits conf n ∧ n = code.evType ∧ i < hdf.len code then
            (conf cfgEvBits (UInt8.ofNat n)).bitmap i else s.code code i }) := by
  unfold fillEvType stops
  rw [Reads.eval_bind, Reads.eval_get]
  by_cases hsize : (conf cfgEvBits (UInt8.ofNat n)).size = 0
  · simp [hasBits, hsize]
  · have hbits : hasBits conf n = true := by simp [hasBits, hsize]
    rw [if_neg hsize]
    cases hcode : codeOf n with
    | none =>
      have hne : ∀ code : Code, n ≠ code.evType := by
        intro code heq
        have hsome := codeOf_eq_some.mpr heq
        rw [hcode] at hsome
        cases hsome
      cases platform <;> simp [hne, hbits]
    | some code =>
      have hn : n = code.evType := codeOf_eq_some.mp hcode
      simp only [Reads.eval_bind, copyBitmap_eval, Reads.eval_pure]
      refine Prod.ext (by simp) ?_
      simp only [hbits, true_and, ne_eq, reduceCtorEq, not_false_eq_true, and_true, if_true,
        HidInfo.mk.injEq]
      funext code' i
      by_cases hcode' : code' = code
      · subst hcode'
        simp [hn]
      · have hother : n ≠ code'.evType := by
          intro heq
          have hsome := codeOf_eq_some.mpr heq
          rw [hcode] at hsome
          exact hcode' (Option.some.inj hsome).symm
        simp [hcode', hother]

/-- The rounds for the event types below `n`. -/
def bitmapRounds (platform : Platform) (hdf : Hdf) (conf : VirtinConfig) (s : HidInfo) (n : ℕ) :
    Bool × HidInfo :=
  (List.range n).foldl
    (fun r evType => if !r.1 then r else (fillEvType platform hdf r.2 evType).eval conf)
    (true, { s with eventType := 0 })

theorem fillHidCodeBitmap_eval (platform : Platform) (hdf : Hdf) (s : HidInfo) (conf : VirtinConfig) :
    (fillHidCodeBitmap platform hdf s).eval conf = bitmapRounds platform hdf conf s hdf.evCnt := by
  unfold fillHidCodeBitmap bitmapRounds
  rw [Reads.eval_foldlM]
  congr 1
  funext r evType
  split_ifs <;> rfl

/-- The bits of the event types below `n`. -/
def eventBits (platform : Platform) (conf : VirtinConfig) : ℕ → UInt32
  | 0 => 0
  | n + 1 =>
    if Reached platform conf n ∧ hasBits conf n ∧ codeOf n ≠ none then
      eventBits platform conf n ||| 1 <<< UInt32.ofNat n
    else eventBits platform conf n

/-- What the rounds read does not depend on what was there; what they do not find stays. -/
structure Rounds (platform : Platform) (hdf : Hdf) (conf : VirtinConfig) (s : HidInfo) (n : ℕ)
    (r : Bool × HidInfo) : Prop where
  ok : r.1 = true ↔ Reached platform conf n
  ids : r.2.ids = s.ids
  axisInfo : r.2.axisInfo = s.axisInfo
  eventType : r.2.eventType = eventBits platform conf n
  found : ∀ code i, Found platform conf n code → i < hdf.len code →
    r.2.code code i = (conf cfgEvBits (UInt8.ofNat code.evType)).bitmap i
  kept : ∀ code i, ¬ Found platform conf n code → r.2.code code i = s.code code i

theorem found_succ {platform : Platform} {conf : VirtinConfig} {n : ℕ} {code : Code} :
    Found platform conf (n + 1) code ↔
      Found platform conf n code ∨ (n = code.evType ∧ hasBits conf n ∧ Reached platform conf n) := by
  constructor
  · rintro ⟨hlt, hbits, hreached⟩
    rcases Nat.lt_succ_iff_lt_or_eq.mp hlt with hlt | heq
    · exact Or.inl ⟨hlt, hbits, hreached⟩
    · exact Or.inr ⟨heq.symm, heq ▸ hbits, heq ▸ hreached⟩
  · rintro (⟨hlt, hbits, hreached⟩ | ⟨rfl, hbits, hreached⟩)
    · exact ⟨by omega, hbits, hreached⟩
    · exact ⟨by omega, hbits, hreached⟩

theorem bitmapRounds_rounds (platform : Platform) (hdf : Hdf) (conf : VirtinConfig) (s : HidInfo)
    (n : ℕ) : Rounds platform hdf conf s n (bitmapRounds platform hdf conf s n) := by
  induction n with
  | zero =>
    refine ⟨by simp [bitmapRounds, Reached], rfl, rfl, rfl, ?_, fun _ _ _ => rfl⟩
    intro code i hfound
    exact absurd hfound.1 (Nat.not_lt_zero _)
  | succ n ih =>
    have hstep : bitmapRounds platform hdf conf s (n + 1) =
        if !(bitmapRounds platform hdf conf s n).1 then bitmapRounds platform hdf conf s n
        else (fillEvType platform hdf (bitmapRounds platform hdf conf s n).2 n).eval conf := by
      unfold bitmapRounds
      rw [List.range_succ, List.foldl_append]
      rfl
    rw [hstep]
    generalize bitmapRounds platform hdf conf s n = r at ih
    by_cases hreached : Reached platform conf n
    · have hfound : ∀ code, Found platform conf (n + 1) code ↔
          Found platform conf n code ∨ (n = code.evType ∧ hasBits conf n) := by
        intro code
        rw [found_succ, and_iff_left hreached]
      rw [ih.ok.mpr hreached, fillEvType_eval]
      refine ⟨?_, ih.ids, ih.axisInfo, ?_, ?_, ?_⟩
      · simp [reached_succ, hreached]
      · simp [eventBits, hreached, ih.eventType]
      · intro code i hnow hi
        by_cases hthis : hasBits conf n ∧ n = code.evType
        · obtain ⟨hbits, rfl⟩ := hthis
          exact if_pos ⟨hbits, rfl, hi⟩
        · refine (if_neg fun h => hthis ⟨h.1, h.2.1⟩).trans (ih.found code i ?_ hi)
          exact ((hfound code).mp hnow).resolve_right fun h => hthis ⟨h.2, h.1⟩
      · intro code i hnow
        refine (if_neg fun h => hnow ((hfound code).mpr (Or.inr ⟨h.2.1, h.1⟩))).trans (ih.kept code i ?_)
        exact fun h => hnow ((hfound code).mpr (Or.inl h))
    · have hok : r.1 = false := Bool.eq_false_of_not_eq_true fun h => hreached (ih.ok.mp h)
      have hfound : ∀ code, Found platform conf (n + 1) code ↔ Found platform conf n code := by
        intro code
        rw [found_succ]
        exact or_iff_left fun h => hreached h.2.2
      simp only [hok, Bool.not_false, if_true]
      refine ⟨?_, ih.ids, ih.axisInfo, ?_, ?_, ?_⟩
      · simp [hok, reached_succ, hreached]
      · simp [eventBits, hreached, ih.eventType]
      · intro code i hnow
        exact ih.found code i ((hfound code).mp hnow)
      · intro code i hnow
        exact ih.kept code i fun h => hnow ((hfound code).mpr h)

/-- The two descriptions agree on what the driver reads. -/
structure SameRead (platform : Platform) (hdf : Hdf) (s z : HidInfo) : Prop where
  ids : s.ids = z.ids
  eventType : s.eventType = z.eventType
  code : ∀ code i, i < hdf.len code → s.code code i = z.code code i
  axisInfo : platform = .liteosA → ∀ i < hdf.cnt .abs, s.axisInfo i = z.axisInfo i

def snapshot (platform : Platform) (hdf : Hdf) (conf : VirtinConfig) : HidInfo :=
  ((fillOnce platform hdf HidInfo.zero).eval conf).2

/-- An item that a reading of the configuration does not find has nothing in the description. -/
structure Clean (platform : Platform) (hdf : Hdf) (conf : VirtinConfig) (s : HidInfo) : Prop where
  ids : (conf cfgIdDevids 0).size = 0 → s.ids = HidInfo.zero.ids
  code : ∀ code, ¬ Found platform conf hdf.evCnt code → ∀ i < hdf.len code, s.code code i = 0
  axisInfo : platform = .liteosA → ∀ i < hdf.cnt .abs, hasAxis conf i = false →
    s.axisInfo i = HidInfo.zero.axisInfo i

theorem reached_liteosA (conf : VirtinConfig) (n : ℕ) : Reached .liteosA conf n := by
  intro e _
  simp [stops]

theorem fillOnce_eval (platform : Platform) (hdf : Hdf) (s : HidInfo) (conf : VirtinConfig) :
    ∃ r, Rounds platform hdf conf ((fillHidDevIds s).eval conf) hdf.evCnt r ∧
      (fillOnce platform hdf s).eval conf =
        (r.1, if platform = .liteosA then (fillHidAbsInfo hdf r.2).eval conf else r.2) := by
  have hrounds := bitmapRounds_rounds platform hdf conf ((fillHidDevIds s).eval conf) hdf.evCnt
  refine ⟨_, hrounds, ?_⟩
  unfold fillOnce
  rw [Reads.eval_bind, Reads.eval_bind, fillHidCodeBitmap_eval]
  generalize bitmapRounds platform hdf conf ((fillHidDevIds s).eval conf) hdf.evCnt = r at hrounds
  obtain ⟨ok, s'⟩ := r
  cases platform with
  | liteosA =>
    have hok : ok = true := hrounds.ok.mpr (reached_liteosA conf _)
    simp [hok]
  | riscv32 => cases ok <;> rfl

/-- The description after a pass over one configuration, part by part. -/
structure ReadOnce (platform : Platform) (hdf : Hdf) (conf : VirtinConfig) (s s' : HidInfo) : Prop where
  ids : s'.ids = if (conf cfgIdDevids 0).size = 0 then s.ids else (conf cfgIdDevids 0).ids
  eventType : s'.eventType = eventBits platform conf hdf.evCnt
  found : ∀ code i, Found platform conf hdf.evCnt code → i < hdf.len code →
    s'.code code i = (conf cfgEvBits (UInt8.ofNat code.evType)).bitmap i
  kept : ∀ code i, ¬ Found platform conf hdf.evCnt code → s'.code code i = s.code code i
  axisInfo : platform = .liteosA → ∀ i < hdf.cnt .abs, s'.axisInfo i =
    if hasAxis conf i then axisOf i (conf cfgAbsInfo (UInt8.ofNat i)).abs else s.axisInfo i

theorem fillOnce_readOnce (platform : Platform) (hdf : Hdf) (s : HidInfo) (conf : VirtinConfig) :
    ReadOnce platform hdf conf s ((fillOnce platform hdf s).eval conf).2 := by
  obtain ⟨r, hr, heval⟩ := fillOnce_eval platform hdf s conf
  have hids : r.2.ids = if (conf cfgIdDevids 0).size = 0 then s.ids else (conf cfgIdDevids 0).ids := by
    rw [hr.ids, fillHidDevIds_eval]
    split_ifs <;> rfl
  have hkept : ((fillHidDevIds s).eval conf).code = s.code ∧
      ((fillHidDevIds s).eval conf).axisInfo = s.axisInfo := by
    rw [fillHidDevIds_eval]
    split_ifs <;> exact ⟨rfl, rfl⟩
  have hcode := hr.kept
  rw [hkept.1] at hcode
  rw [heval]
  cases platform with
  | liteosA =>
    rw [if_pos rfl, fillHidAbsInfo_eval]
    refine ⟨hids, hr.eventType, hr.found, hcode, fun _ i hi => ?_⟩
    simp only [hi, true_and, hr.axisInfo, hkept.2]
  | riscv32 => exact ⟨hids, hr.eventType, hr.found, hcode, nofun⟩

theorem sameRead_iff_clean (platform : Platform) (hdf : Hdf) (conf : VirtinConfig) (s : HidInfo) :
    SameRead platform hdf ((fillOnce platform hdf s).eval conf).2 (snapshot platform hdf conf) ↔
      Clean platform hdf conf s := by
  have hs := fillOnce_readOnce platform hdf s conf
  have hz : ReadOnce platform hdf conf HidInfo.zero (snapshot platform hdf conf) :=
    fillOnce_readOnce platform hdf HidInfo.zero conf
  constructor
  · intro h
    refine ⟨fun habsent => ?_, fun code hlost i hi => ?_, fun hliteosA i hi habsent => ?_⟩
    · have hsame := h.ids
      rwa [hs.ids, hz.ids, if_pos habsent, if_pos habsent] at hsame
    · have hsame := h.code code i hi
      rwa [hs.kept code i hlost, hz.kept code i hlost] at hsame
    · have hsame := h.axisInfo hliteosA i hi
      rw [hs.axisInfo hliteosA i hi, hz.axisInfo hliteosA i hi, habsent] at hsame
      exact hsame
  · intro h
    refine ⟨?_, hs.eventType.trans hz.eventType.symm, fun code i hi => ?_, fun hliteosA i hi => ?_⟩
    · rw [hs.ids, hz.ids]
      split_ifs with habsent
      · exact h.ids habsent
      · rfl
    · by_cases hfound : Found platform conf hdf.evCnt code
      · rw [hs.found code i hfound hi, hz.found code i hfound hi]
      · rw [hs.kept code i hfound, hz.kept code i hfound]
        exact h.code code hfound i hi
    · rw [hs.axisInfo hliteosA i hi, hz.axisInfo hliteosA i hi]
      split_ifs with haxis
      · rfl
      · exact h.axisInfo hliteosA i hi (Bool.eq_false_of_not_eq_true haxis)

/-- Exactly what the abandoned passes left in items that the configuration lacks remains. When
riscv32 gives up, nothing tells whether the configuration changed during the pass. -/
theorem hidInfo_iff (platform : Platform) (hdf : Hdf) (src : Source VirtinConfig UInt32) (fuel t : ℕ)
    {ok : Bool} {hid : HidInfo} {t' : ℕ} {p : Pass HidInfo}
    (h : virtinFillHidInfo platform hdf src fuel t = some (ok, hid, t', p))
    (htracks : src.Tracks t t')
    (hsteady : ok = false → ∀ j, p.before ≤ j → j ≤ p.after → src.value j = src.value p.after) :
    SameRead platform hdf hid (snapshot platform hdf (src.value p.after)) ↔
      Clean platform hdf (src.value p.after) p.start := by
  obtain ⟨hended, -⟩ := retry_ended h
  have hvalue : ∀ j, p.before ≤ j → j ≤ p.after → src.value j = src.value p.after := by
    cases ok with
    | false => exact hsteady rfl
    | true =>
      have hversion := hended.version rfl
      intro j hj hj'
      have hend := htracks.value_eq hended.start hended.after hversion hended.before.le (Nat.le_refl _)
      rw [hend]
      exact htracks.value_eq hended.start hended.after hversion hj hj'
  have hrun : ((fillOnce platform hdf p.start).eval (src.value p.after)).2 = hid := by
    rw [← Reads.run_eq_eval (fillOnce platform hdf p.start) (t := p.before + 1), hended.run]
    intro j hj hlt
    rw [hended.run] at hlt
    exact hvalue j (by omega) hlt.le
  rw [← hrun]
  exact sameRead_iff_clean platform hdf (src.value p.after) p.start

def absent : Item := ⟨0, fun _ => 0, ⟨0, 0, 0, 0, 0⟩, ⟨0, 0, 0, 0⟩⟩

def keys : Item := { absent with size := 1, bitmap := fun _ => 0xff }

def hdf : Hdf := ⟨0x20, fun code => match code with | .key => 0x300 | .rel => 0x10 | .abs => 0x40⟩

def gains : Source VirtinConfig UInt32 :=
  Source.once 50 (fun _ _ => absent)
    (fun select subsel => if select = cfgEvBits ∧ subsel = 1 then keys else absent) 7 8

theorem hidInfo_iff_gains :
    ∃ hid t p, virtinFillHidInfo .liteosA hdf gains 2 0 = some (true, hid, t, p) ∧
      SameRead .liteosA hdf hid (snapshot .liteosA hdf (gains.value p.after)) := by
  refine ⟨_, _, _, rfl, (hidInfo_iff .liteosA hdf gains 2 0 rfl
    (Source.once_tracks _ _ _ (by decide) _ _) nofun).mpr ⟨fun _ => rfl, ?_, fun _ _ _ _ => rfl⟩⟩
  exact fun _ _ _ _ => rfl

/-- A keyboard that loses its keys after they were read, before the generation is. -/
def loses : Source VirtinConfig UInt32 :=
  Source.once 140 (fun select subsel => if select = cfgEvBits ∧ subsel = 1 then keys else absent)
    (fun _ _ => absent) 7 8

theorem keys_remain :
    ∃ hid t p, virtinFillHidInfo .liteosA hdf loses 2 0 = some (true, hid, t, p) ∧ loses.Tracks 0 t ∧
      ¬ SameRead .liteosA hdf hid (snapshot .liteosA hdf (loses.value p.after)) := by
  refine ⟨_, _, _, rfl, Source.once_tracks _ _ _ (by decide) _ _, fun h => ?_⟩
  exact absurd (h.code .key 0 (by decide)) (by decide)

end VirtinputHidInfo
