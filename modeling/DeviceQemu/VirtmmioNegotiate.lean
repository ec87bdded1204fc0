import DeviceQemu.VersionedReads
import Mathlib.Data.Fin.Basic
import Mathlib.Data.List.FinRange
import Mathlib.Data.Nat.Bitwise
import Mathlib.Tactic.SplitIfs

/-! Feature and configuration negotiation.
VirtmmioNegotiate with the feature callbacks of virtblock and virtnet. The device changes its
configuration at any time; reads of registers are numbered, and each has a time of its own. -/
namespace VirtmmioNegotiate

open VersionedReads

def virtioStatusFeaturesOk : UInt32 := 8
def virtioFeatureWord0 : UInt32 := 0
def virtioFeatureWord1 : UInt32 := 1
def virtioFVersion1 : UInt32 := (1 : UInt32) <<< 0
def virtioBlkFRo : UInt32 := (1 : UInt32) <<< 5
def virtioBlkFBlkSize : UInt32 := (1 : UInt32) <<< 6
def virtblkDefBlkSize : UInt32 := 8192
def fat32MaxClusterSecs : UInt32 := 128
def virtioNetFMtu : UInt32 := (1 : UInt32) <<< 3
def virtioNetFMac : UInt32 := (1 : UInt32) <<< 5

/-- The configuration space and its generation at each time. `feature` is what is offered in a
word, and `status` what the status register reads when a value was written. -/
structure Device (C : Type) extends Source C UInt32 where
  feature : UInt32 → UInt32
  status : ℕ → UInt32 → UInt32

/-- For each word, `drvFeature` is what was written, and `lastPass` are the times at which the last
pass of its loop read the generation. -/
structure Bus where
  time : ℕ
  devFeatureSel : UInt32
  drvFeatureSel : UInt32
  drvFeature : UInt32 → UInt32
  status : UInt32
  lastPass : UInt32 → Option (ℕ × ℕ)

/-- Whether the callback accepts the features, what it supports, and the driver's record. -/
abbrev VirtioFeatureFn (C D : Type) := UInt32 → UInt32 → D → Reads C (Bool × UInt32 × D)

/-- The loop has what is supported, reset in each pass, and the driver's record. -/
def negotiate {C D : Type} (dev : Device C) (fuel : ℕ) (nth : UInt32) (fn : VirtioFeatureFn C D)
    (d : D) (bus : Bus) : Option (Bool × D × Bus) :=
  let features := dev.feature nth
  (retry dev.toSource (fun s => fn features 0 s.2) fuel (0, d) (bus.time + 1)).map
    fun (ok, (supported, d), time, pass) =>
      let bus := { bus with
        time, devFeatureSel := nth
        lastPass := Function.update bus.lastPass nth (some (pass.before, pass.after)) }
      if !ok then (false, d, bus)
      else (true, d, { bus with
        drvFeatureSel := nth, drvFeature := Function.update bus.drvFeature nth supported })

def virtioGetStatus {C : Type} (dev : Device C) (bus : Bus) : UInt32 × Bus :=
  (dev.status bus.time bus.status, { bus with time := bus.time + 1 })

def virtioAddStatus {C : Type} (dev : Device C) (val : UInt32) (bus : Bus) : Bus :=
  let (status, bus) := virtioGetStatus dev bus
  { bus with status := status ||| val }

def virtmmioNegotiate {C D : Type} (dev : Device C) (fuel : ℕ) (f0 f1 : VirtioFeatureFn C D) (d : D)
    (bus : Bus) : Option (Bool × D × Bus) :=
  (negotiate dev fuel virtioFeatureWord0 f0 d bus).bind fun (ok, d, bus) =>
    if !ok then some (false, d, bus)
    else (negotiate dev fuel virtioFeatureWord1 f1 d bus).map fun (ok, d, bus) =>
      if !ok then (false, d, bus)
      else
        let (status, bus) := virtioGetStatus dev (virtioAddStatus dev virtioStatusFeaturesOk bus)
        (status &&& virtioStatusFeaturesOk ≠ 0, d, bus)

def feature1 {C D : Type} : VirtioFeatureFn C D := fun features supported d =>
  if features &&& virtioFVersion1 ≠ 0 then pure (true, supported ||| virtioFVersion1, d)
  else pure (false, supported, d)

/-- What the drivers take from the headers of HDF. -/
structure Hdf where
  mmcSecSize : UInt32
  wlanMinMtu : UInt32
  wlanMaxMtu : UInt32
  defaultMtu : UInt32
  deriving DecidableEq, Repr

/-- segMax and the geometry are not read. -/
structure VirtblkConfig where
  capacity : UInt64
  blkSize : UInt32
  deriving DecidableEq, Repr

structure Virtblk where
  capacity : UInt64
  blkSize : UInt32
  deriving DecidableEq, Repr

def usableBlkSize (hdf : Hdf) (bs : UInt32) : Bool :=
  hdf.mmcSecSize ≤ bs && bs ≤ fat32MaxClusterSecs * hdf.mmcSecSize && bs &&& (bs - 1) = 0

def readBlkSize (hdf : Hdf) (features supported : UInt32) (blk : Virtblk) :
    Reads VirtblkConfig (UInt32 × Virtblk) :=
  if features &&& virtioBlkFBlkSize ≠ 0 then do
    let bs ← Reads.get (·.blkSize)
    pure (if usableBlkSize hdf bs then (supported ||| virtioBlkFBlkSize, { blk with blkSize := bs })
      else (supported, blk))
  else pure (supported, blk)

def readCapacity : Reads VirtblkConfig UInt64 := do
  let low ← Reads.get (·.capacity.toUInt32)
  let high ← Reads.get fun conf => (conf.capacity >>> 32).toUInt32
  pure (high.toUInt64 <<< 32 ||| low.toUInt64)

def blkFeature0 (hdf : Hdf) : VirtioFeatureFn VirtblkConfig Virtblk := fun features supported blk =>
  if features &&& virtioBlkFRo ≠ 0 then pure (false, supported, blk)
  else do
    let (supported, blk) ← readBlkSize hdf features supported { blk with blkSize := virtblkDefBlkSize }
    let capacity ← readCapacity
    pure (true, supported, { blk with capacity })

/-- status and maxVirtqPairs are not read. -/
structure VirtnetConfig where
  mac : Fin 6 → UInt8
  mtu : UInt16

def macAddrSize : UInt8 := 6

structure NetDevice where
  mtu : UInt32
  macAddr : Fin 6 → UInt8
  addrLen : UInt8

/-- Whether the mtu is rejected; it is read once more for the lower bound. -/
def unsupportedMtu (hdf : Hdf) : Reads VirtnetConfig Bool := do
  let mtu ← Reads.get (·.mtu)
  if hdf.wlanMaxMtu < mtu.toUInt32 then pure true
  else do
    let mtu ← Reads.get (·.mtu)
    pure (mtu.toUInt32 < hdf.wlanMinMtu)

def readMtu (hdf : Hdf) (features supported : UInt32) (netDev : NetDevice) :
    Reads VirtnetConfig (Bool × UInt32 × NetDevice) :=
  if features &&& virtioNetFMtu ≠ 0 then do
    let unsupported ← unsupportedMtu hdf
    if unsupported then pure (false, supported, netDev)
    else do
      let mtu ← Reads.get (·.mtu)
      pure (true, supported ||| virtioNetFMtu, { netDev with mtu := mtu.toUInt32 })
  else pure (true, supported, { netDev with mtu := hdf.defaultMtu })

def readMac (netDev : NetDevice) : Reads VirtnetConfig NetDevice :=
  (List.finRange 6).foldlM (fun (netDev : NetDevice) i => do
    let byte ← Reads.get (·.mac i)
    pure { netDev with macAddr := Function.update netDev.macAddr i byte }) netDev

def netFeature0 (hdf : Hdf) : VirtioFeatureFn VirtnetConfig NetDevice :=
  fun features supported netDev => do
    let (ok, supported, netDev) ← readMtu hdf features supported netDev
    if !ok then pure (false, supported, netDev)
    else if features &&& virtioNetFMac = 0 then pure (false, supported, netDev)
    else do
      let netDev ← readMac netDev
      pure (true, supported ||| virtioNetFMac, { netDev with addrLen := macAddrSize })

/-- How the negotiation of a word that succeeds ends. A callback that leaves the record `d` alone
leaves it alone in every pass. -/
structure Settles {C D : Type} (dev : Device C) (nth : UInt32) (fn : VirtioFeatureFn C D)
    (d d' : D) (bus bus' : Bus) : Prop where
  pass : ∃ supported p, Ended dev.toSource (fun s => fn (dev.feature nth) 0 s.2) (bus.time + 1) true
      (supported, d') bus'.time p ∧
    bus'.lastPass = Function.update bus.lastPass nth (some (p.before, p.after)) ∧
    bus'.drvFeature = Function.update bus.drvFeature nth supported
  record : (∀ d₀ t, ((fn (dev.feature nth) 0 d₀).run dev.value t).1.2.2 = d₀) → d' = d

theorem negotiate_settles {C D : Type} {dev : Device C} {fuel : ℕ} {nth : UInt32}
    {fn : VirtioFeatureFn C D} {d d' : D} {bus bus' : Bus}
    (h : negotiate dev fuel nth fn d bus = some (true, d', bus')) :
    Settles dev nth fn d d' bus bus' := by
  obtain ⟨⟨ok, ⟨supported, d₁⟩, time, p⟩, hloop, heq⟩ := Option.map_eq_some_iff.mp h
  cases ok with
  | false => cases heq
  | true =>
    obtain ⟨hended, hkept⟩ := retry_ended hloop
    cases heq
    refine ⟨⟨supported, p, hended, rfl, rfl⟩, fun hrecord => ?_⟩
    have hstart : p.start.2 = d := hkept (fun s => s.2 = d) rfl fun s t hs => (hrecord s.2 t).trans hs
    have hlast := hrecord p.start.2 (p.before + 1)
    rw [hended.run] at hlast
    exact hlast.trans hstart

/-- A negotiation that succeeds has settled both words, one after the other. -/
theorem virtmmioNegotiate_settles {C D : Type} {dev : Device C} {fuel : ℕ}
    {f0 f1 : VirtioFeatureFn C D} {d d' : D} {bus bus' : Bus}
    (h : virtmmioNegotiate dev fuel f0 f1 d bus = some (true, d', bus')) :
    ∃ d₁ bus₁ bus₂, Settles dev virtioFeatureWord0 f0 d d₁ bus bus₁ ∧
      Settles dev virtioFeatureWord1 f1 d₁ d' bus₁ bus₂ ∧ bus₂.time ≤ bus'.time ∧
      bus'.lastPass = bus₂.lastPass ∧ bus'.drvFeature = bus₂.drvFeature := by
  obtain ⟨⟨ok₀, d₁, bus₁⟩, h₀, hrest⟩ := Option.bind_eq_some_iff.mp h
  cases ok₀ with
  | false => cases hrest
  | true =>
    obtain ⟨⟨ok₁, d₂, bus₂⟩, h₁, hlast⟩ := Option.map_eq_some_iff.mp hrest
    cases ok₁ with
    | false => cases hlast
    | true =>
      obtain ⟨-, rfl, rfl⟩ : _ ∧ d₂ = d' ∧ _ = bus' := by simpa using hlast
      exact ⟨d₁, bus₁, bus₂, negotiate_settles h₀, negotiate_settles h₁, Nat.le_add_right _ 2, rfl, rfl⟩

/-- The features of `x` are features of `y`. -/
def Subset (x y : UInt32) : Prop := ∀ i, x.toNat.testBit i = true → y.toNat.testBit i = true

theorem zero_subset (y : UInt32) : Subset 0 y := by
  intro i hi
  simp at hi

theorem bit_subset {features bit : UInt32} {i : ℕ} (hbit : bit.toNat = 2 ^ i)
    (h : features &&& bit ≠ 0) : Subset bit features := by
  have hne : (features &&& bit).toNat ≠ 0 := fun hzero => h (UInt32.toNat_inj.mp hzero)
  rw [UInt32.toNat_and, hbit, Nat.and_two_pow] at hne
  intro j hj
  rw [hbit, Nat.testBit_two_pow, decide_eq_true_eq] at hj
  subst hj
  by_contra hoff
  simp [hoff] at hne

theorem union_subset {features x y : UInt32} (hx : Subset x features) (hy : Subset y features) :
    Subset (x ||| y) features := by
  intro i hi
  rw [UInt32.toNat_or, Nat.testBit_or, Bool.or_eq_true] at hi
  exact hi.elim (hx i) (hy i)

theorem feature1_record {C D : Type} (features : UInt32) (d : D) (value : ℕ → C) (t : ℕ) :
    ((feature1 features 0 d : Reads C _).run value t).1.2.2 = d := by
  unfold feature1
  split_ifs <;> rfl

theorem feature1_spec {C D : Type} {value : ℕ → C} {features supported : UInt32} {d d' : D} {t : ℕ}
    (h : ((feature1 features 0 d : Reads C _).run value t).1 = (true, supported, d')) :
    features &&& virtioFVersion1 ≠ 0 ∧ supported = virtioFVersion1 := by
  unfold feature1 at h
  split_ifs at h with hoffered
  · cases h
    exact ⟨hoffered, rfl⟩
  · cases h

theorem halves (c : UInt64) : (c >>> 32).toUInt32.toUInt64 <<< 32 ||| c.toUInt32.toUInt64 = c := by
  apply UInt64.toNat_inj.mp
  have hlt := c.toNat_lt
  have h32 : (32 : UInt64).toNat % 64 = 32 := rfl
  have hhigh : c.toNat / 2 ^ 32 % 2 ^ 32 = c.toNat / 2 ^ 32 := Nat.mod_eq_of_lt (by omega)
  have hsmall : c.toNat / 2 ^ 32 * 2 ^ 32 < 2 ^ 64 := by omega
  rw [UInt64.toNat_or, UInt64.toNat_shiftLeft, UInt32.toNat_toUInt64, UInt32.toNat_toUInt64,
    UInt64.toNat_toUInt32, UInt64.toNat_toUInt32, UInt64.toNat_shiftRight, h32,
    Nat.shiftRight_eq_div_pow, hhigh, Nat.shiftLeft_eq, Nat.mod_eq_of_lt hsmall, Nat.mul_comm,
    ← Nat.two_pow_add_eq_or_of_lt (by omega)]
  omega

def blkOf (hdf : Hdf) (features : UInt32) (conf : VirtblkConfig) : Virtblk :=
  ⟨conf.capacity, if features &&& virtioBlkFBlkSize ≠ 0 ∧ usableBlkSize hdf conf.blkSize then
    conf.blkSize else virtblkDefBlkSize⟩

theorem readCapacity_eval (conf : VirtblkConfig) : readCapacity.eval conf = conf.capacity :=
  halves conf.capacity

theorem readBlkSize_spec (hdf : Hdf) (features : UInt32) (capacity : UInt64) (conf : VirtblkConfig) :
    ∃ supported, (readBlkSize hdf features 0 ⟨capacity, virtblkDefBlkSize⟩).eval conf =
      (supported, { blkOf hdf features conf with capacity }) ∧ Subset supported features := by
  unfold readBlkSize
  split_ifs with hoffered
  · rw [Reads.eval_bind, Reads.eval_get, Reads.eval_pure]
    cases husable : usableBlkSize hdf conf.blkSize with
    | true =>
      refine ⟨0 ||| virtioBlkFBlkSize, by simp [blkOf, hoffered, husable], ?_⟩
      exact union_subset (zero_subset _) (bit_subset (i := 6) rfl hoffered)
    | false => exact ⟨0, by simp [blkOf, husable], zero_subset _⟩
  · exact ⟨0, by simp [blkOf, not_not.mp hoffered], zero_subset _⟩

theorem blkFeature0_spec {hdf : Hdf} {features supported : UInt32} {blk blk' : Virtblk}
    {conf : VirtblkConfig}
    (h : (blkFeature0 hdf features 0 blk).eval conf = (true, supported, blk')) :
    features &&& virtioBlkFRo = 0 ∧ Subset supported features ∧ blk' = blkOf hdf features conf := by
  unfold blkFeature0 at h
  split_ifs at h with hro
  · cases h
  · obtain ⟨sup, heval, hsubset⟩ := readBlkSize_spec hdf features blk.capacity conf
    rw [Reads.eval_bind, heval] at h
    simp only [Reads.eval_bind, readCapacity_eval] at h
    cases h
    exact ⟨not_not.mp hro, hsubset, rfl⟩

def mtuOf (hdf : Hdf) (features : UInt32) (conf : VirtnetConfig) : UInt32 :=
  if features &&& virtioNetFMtu ≠ 0 then conf.mtu.toUInt32 else hdf.defaultMtu

theorem readMac_eval (netDev : NetDevice) (conf : VirtnetConfig) :
    (readMac netDev).eval conf = { netDev with macAddr := conf.mac } := by
  have hmac : ∀ (l : List (Fin 6)) (netDev : NetDevice),
      l.foldl (fun netDev i => { netDev with macAddr := Function.update netDev.macAddr i (conf.mac i) })
        netDev = { netDev with macAddr := fun i => if i ∈ l then conf.mac i else netDev.macAddr i } := by
    intro l
    induction l with
    | nil => simp
    | cons i l ih =>
      intro netDev
      rw [List.foldl_cons, ih]
      congr 1
      funext k
      by_cases hk : k = i <;> simp [hk]
  unfold readMac
  rw [Reads.eval_foldlM]
  simp only [Reads.eval_bind, Reads.eval_get, Reads.eval_pure]
  rw [hmac]
  simp [List.mem_finRange]

theorem readMtu_spec {hdf : Hdf} {features supported : UInt32} {netDev netDev' : NetDevice}
    {conf : VirtnetConfig}
    (h : (readMtu hdf features 0 netDev).eval conf = (true, supported, netDev')) :
    Subset supported features ∧ netDev'.mtu = mtuOf hdf features conf := by
  unfold readMtu at h
  split_ifs at h with hoffered
  · rw [Reads.eval_bind] at h
    cases hunsupported : (unsupportedMtu hdf).eval conf with
    | true =>
      rw [hunsupported] at h
      cases h
    | false =>
      rw [hunsupported] at h
      cases h
      refine ⟨union_subset (zero_subset _) (bit_subset (i := 3) rfl hoffered), ?_⟩
      simp [mtuOf, hoffered]
  · cases h
    exact ⟨zero_subset _, by simp [mtuOf, not_not.mp hoffered]⟩

theorem netFeature0_spec {hdf : Hdf} {features supported : UInt32} {netDev netDev' : NetDevice}
    {conf : VirtnetConfig}
    (h : (netFeature0 hdf features 0 netDev).eval conf = (true, supported, netDev')) :
    features &&& virtioNetFMac ≠ 0 ∧ Subset supported features ∧
      netDev'.macAddr = conf.mac ∧ netDev'.mtu = mtuOf hdf features conf := by
  unfold netFeature0 at h
  rw [Reads.eval_bind] at h
  rcases hmtu : (readMtu hdf features 0 netDev).eval conf with ⟨ok, sup, netDev₁⟩
  rw [hmtu] at h
  cases ok with
  | false => cases h
  | true =>
    simp only [Bool.not_true, Bool.false_eq_true, if_false] at h
    split_ifs at h with hmac
    · cases h
    · rw [Reads.eval_bind, readMac_eval] at h
      cases h
      obtain ⟨hsub, heq⟩ := readMtu_spec hmtu
      exact ⟨hmac, union_subset hsub (bit_subset (i := 5) rfl hmac), rfl, heq⟩

/-- `stored` tells what the driver's record has of a configuration. -/
structure Agreed {C : Type} (dev : Device C) (bus bus' : Bus) (stored : C → Prop) : Prop where
  snapshot : ∃ before after, bus'.lastPass virtioFeatureWord0 = some (before, after) ∧
    before < after ∧ after ≤ bus'.time ∧ dev.version before = dev.version after ∧
    ∀ t, bus.time ≤ t → t ≤ bus'.time → dev.version t = dev.version after → stored (dev.value t)
  subset : ∀ word ∈ [virtioFeatureWord0, virtioFeatureWord1],
    Subset (bus'.drvFeature word) (dev.feature word)
  version1 : Subset virtioFVersion1 (bus'.drvFeature virtioFeatureWord1)
  offered : dev.feature virtioFeatureWord1 &&& virtioFVersion1 ≠ 0

/-- The first callback decides what is agreed on; the second has VERSION_1 accepted. -/
theorem agreed_of_settles {C D : Type} {dev : Device C} {f0 : VirtioFeatureFn C D} {fuel : ℕ}
    {d d' : D} {bus bus' : Bus} {required : Prop} (stored : D → C → Prop)
    (h : virtmmioNegotiate dev fuel f0 feature1 d bus = some (true, d', bus'))
    (htracks : dev.Tracks bus.time bus'.time)
    (hf0 : ∀ d₀ d₁ conf supported,
      (f0 (dev.feature virtioFeatureWord0) 0 d₀).eval conf = (true, supported, d₁) →
        required ∧ Subset supported (dev.feature virtioFeatureWord0) ∧ stored d₁ conf) :
    required ∧ Agreed dev bus bus' (stored d') := by
  obtain ⟨d₁, bus₁, bus₂, h₀, h₁, htime, hlast, hdrv⟩ := virtmmioNegotiate_settles h
  obtain ⟨supported₀, p₀, hended₀, hlast₀, hdrv₀⟩ := h₀.pass
  obtain ⟨supported₁, p₁, hended₁, hlast₁, hdrv₁⟩ := h₁.pass
  obtain ⟨hoffered, rfl⟩ := feature1_spec (congrArg Prod.fst hended₁.run)
  obtain rfl := h₁.record fun d t => feature1_record _ d dev.value t
  have hne : virtioFeatureWord0 ≠ virtioFeatureWord1 := by decide
  have hstart : bus.time ≤ p₀.before := (Nat.le_succ _).trans hended₀.start
  have hend : p₀.after ≤ bus'.time := by
    have := hended₀.after
    have := hended₁.start
    have := hended₁.before
    have := hended₁.after
    omega
  have hversion := hended₀.version rfl
  have heval := htracks.run_eq_eval hstart hend hended₀.run hversion
  obtain ⟨hrequired, hsubset, hstored⟩ := hf0 _ _ _ _ heval.symm
  refine ⟨hrequired, ⟨p₀.before, p₀.after, ?_, hended₀.before, hend, hversion, ?_⟩, ?_, ?_, hoffered⟩
  · rw [hlast, hlast₁, Function.update_of_ne hne, hlast₀, Function.update_self]
  · intro t ht ht' hsame
    have hbefore := hended₀.before
    rw [htracks.value_eq_of_version ht ht' hstart (by omega) (hsame.trans hversion.symm)]
    exact hstored
  · intro word hword
    rcases List.mem_pair.mp hword with rfl | rfl
    · rw [hdrv, hdrv₁, Function.update_of_ne hne, hdrv₀, Function.update_self]
      exact hsubset
    · rw [hdrv, hdrv₁, Function.update_self]
      exact bit_subset (i := 0) rfl hoffered
  · rw [hdrv, hdrv₁, Function.update_self]
    exact fun _ => id

theorem negotiation_consistent (hdf : Hdf) :
    (∀ (dev : Device VirtblkConfig) (fuel : ℕ) (blk blk' : Virtblk) (bus bus' : Bus),
      virtmmioNegotiate dev fuel (blkFeature0 hdf) feature1 blk bus = some (true, blk', bus') →
      dev.Tracks bus.time bus'.time →
      dev.feature virtioFeatureWord0 &&& virtioBlkFRo = 0 ∧
        Agreed dev bus bus' fun conf => blk' = blkOf hdf (dev.feature virtioFeatureWord0) conf) ∧
    (∀ (dev : Device VirtnetConfig) (fuel : ℕ) (netDev netDev' : NetDevice) (bus bus' : Bus),
      virtmmioNegotiate dev fuel (netFeature0 hdf) feature1 netDev bus = some (true, netDev', bus') →
      dev.Tracks bus.time bus'.time →
      dev.feature virtioFeatureWord0 &&& virtioNetFMac ≠ 0 ∧
        Agreed dev bus bus' fun conf => netDev'.macAddr = conf.mac ∧
          netDev'.mtu = mtuOf hdf (dev.feature virtioFeatureWord0) conf) := by
  constructor
  · intro dev fuel blk blk' bus bus' h htracks
    refine agreed_of_settles
      (fun blk conf => blk = blkOf hdf (dev.feature virtioFeatureWord0) conf) h htracks ?_
    exact fun _ _ _ _ => blkFeature0_spec
  · intro dev fuel netDev netDev' bus bus' h htracks
    refine agreed_of_settles
      (fun netDev conf => netDev.macAddr = conf.mac ∧
        netDev.mtu = mtuOf hdf (dev.feature virtioFeatureWord0) conf) h htracks ?_
    exact fun _ _ _ _ => netFeature0_spec

/-- A device that changes its configuration once, and offers what the drivers know. -/
def changesAt {C : Type} (time : ℕ) (old new : C) (word0 : UInt32) : Device C where
  toSource := Source.once time old new 7 8
  feature word := if word = virtioFeatureWord0 then word0 else virtioFVersion1
  status _ written := written

def hdf : Hdf := ⟨512, 68, 1500, 1500⟩

def idle : Bus := ⟨0, 0, 0, fun _ => 0, 0, fun _ => none⟩

/-- Both configurations change between the reads of the first pass. -/
theorem negotiation_consistent_retried :
    (∃ blk bus, virtmmioNegotiate (changesAt 4 ⟨100, 512⟩ ⟨0x200000001, 4096⟩ virtioBlkFBlkSize) 2
        (blkFeature0 hdf) feature1 ⟨0, 0⟩ idle = some (true, blk, bus) ∧ blk = ⟨0x200000001, 4096⟩ ∧
      Agreed (changesAt 4 ⟨100, 512⟩ ⟨0x200000001, 4096⟩ virtioBlkFBlkSize) idle bus
        fun conf => blk = blkOf hdf virtioBlkFBlkSize conf) ∧
    (∃ netDev bus, virtmmioNegotiate (changesAt 4 ⟨fun _ => 1, 100⟩ ⟨fun _ => 2, 1000⟩
        (virtioNetFMtu ||| virtioNetFMac)) 2 (netFeature0 hdf) feature1 ⟨0, fun _ => 0, 0⟩ idle =
          some (true, netDev, bus) ∧ netDev.mtu = 1000 ∧
      Agreed (changesAt 4 ⟨fun _ => 1, 100⟩ ⟨fun _ => 2, 1000⟩ (virtioNetFMtu ||| virtioNetFMac)) idle
        bus fun conf => netDev.macAddr = conf.mac ∧
          netDev.mtu = mtuOf hdf (virtioNetFMtu ||| virtioNetFMac) conf) :=
  ⟨⟨_, _, rfl, rfl,
      ((negotiation_consistent hdf).1 _ 2 ⟨0, 0⟩ _ idle _ rfl
        (Source.once_tracks _ _ _ (by decide) ..)).2⟩,
    ⟨_, _, rfl, rfl,
      ((negotiation_consistent hdf).2 _ 2 ⟨0, fun _ => 0, 0⟩ _ idle _ rfl
        (Source.once_tracks _ _ _ (by decide) ..)).2⟩⟩

end VirtmmioNegotiate
