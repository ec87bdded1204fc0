import DeviceQemu.ChainedBuckets
import DeviceQemu.StepSystem
import Mathlib.Data.Int.Order.Basic

/-! The framebuffer registry.
register_driver, unregister_driver and FbMemLookup of fb_mem.c over the path cache of key_cache.c.
Calls are steps; the allocator chooses which allocations succeed and where an fb_mem lies. -/
namespace FbMem

open StepSystem ChainedBuckets

abbrev Ptr := ℕ

/-- The bytes of a C string, without its terminator. -/
structure CString where
  bytes : List UInt8
  terminated : 0 ∉ bytes
  deriving DecidableEq

def strlen (s : CString) : ℕ := s.bytes.length

def CString.take (s : CString) (n : ℕ) : CString :=
  ⟨s.bytes.take n, fun h => s.terminated (List.mem_of_mem_take h)⟩

def strncmpZero : ℕ → List UInt8 → List UInt8 → Bool
  | 0, _, _ => true
  | _ + 1, [], [] => true
  | n + 1, a :: s, b :: t => a == b && strncmpZero n s t
  | _ + 1, _, _ => false

structure Limits where
  pathMax : ℕ
  nameMax : ℕ

def fnv1Init : UInt32 := 0x811c9dc5
def fnvPrime : UInt32 := 0x01000193
abbrev maxPathCacheSize : ℕ := 512
def pathCacheHashMask : UInt32 := UInt32.ofNat (maxPathCacheSize - 1)

def hashFNV32aBuf (buf : List UInt8) (hval : UInt32) : UInt32 :=
  buf.foldl (fun h b => (h ^^^ b.toUInt32) * fnvPrime) hval

/-- The bucket of the whole of `name`; a hash of its first bytes is that of a `take`. -/
def nameHash (name : CString) : Fin maxPathCacheSize :=
  ⟨(hashFNV32aBuf name.bytes fnv1Init &&& pathCacheHashMask).toNat, by
    rw [UInt32.toNat_and]
    exact Nat.lt_of_le_of_lt Nat.and_le_right (by decide)⟩

structure KeyCache where
  fbmem : Ptr
  nameLen : UInt8
  name : CString
  fits : strlen name = nameLen.toNat

/-- `data` has the allocated fb_mem blocks, each with its private data. -/
structure State where
  hashEntrys : Table maxPathCacheSize KeyCache
  data : Ptr → Option Ptr

def initial : State := ⟨fun _ => [], fun _ => none⟩

structure Outcome where
  ret : ℤ
  result : Option Ptr
  state : State

def losNok : ℤ := 1
def enoent : ℤ := 2
def enxio : ℤ := 6
def eexist : ℤ := 17
def einval : ℤ := 22

def vCreate : UInt32 := 1
def vDummy : UInt32 := 4

def sameName (name : CString) (kc : KeyCache) : Bool :=
  kc.nameLen.toNat == strlen name && strncmpZero (strlen name) kc.name.bytes name.bytes

def keyCacheLookup (s : State) (name : CString) : Option Ptr :=
  (find nameHash sameName s.hashEntrys name).map KeyCache.fbmem

/-- The `uint8_t len` that KeyCacheAlloc receives. -/
def cacheLen (name : CString) : UInt8 := UInt8.ofNat (strlen name)

theorem strlen_take_cacheLen (name : CString) :
    strlen (name.take (cacheLen name).toNat) = (cacheLen name).toNat := by
  have hle : (cacheLen name).toNat ≤ strlen name := by
    rw [cacheLen, UInt8.toNat_ofNat']
    exact Nat.mod_le _ _
  exact (List.length_take ..).trans (Nat.min_eq_left hle)

def newCache (fbmem : Ptr) (name : CString) : KeyCache :=
  ⟨fbmem, cacheLen name, name.take (cacheLen name).toNat, strlen_take_cacheLen name⟩

def keyCacheInsert (s : State) (kc : KeyCache) : State :=
  { s with hashEntrys := push s.hashEntrys (nameHash kc.name) kc }

/-- KeyCacheAlloc returns a node; `zalloc` is whether its memory is there. -/
def Caches (l : Limits) (name : CString) (zalloc : Bool) : Prop :=
  (cacheLen name).toNat ≤ l.nameMax ∧ zalloc = true

instance (l : Limits) (name : CString) (zalloc : Bool) : Decidable (Caches l name zalloc) := by
  unfold Caches
  infer_instance

def keyCacheAlloc (l : Limits) (s : State) (fbmem : Ptr) (name : CString) (zalloc : Bool) : State :=
  if Caches l name zalloc then keyCacheInsert s (newCache fbmem name) else s

def fbMemKeyCacheFree (s : State) (fbmem : Ptr) : State :=
  { s with hashEntrys := eraseFirst s.hashEntrys fun kc => kc.fbmem == fbmem }

def setData (s : State) (fbmem : Ptr) (d : Ptr) : State :=
  { s with data := Function.update s.data fbmem (some d) }

def free (s : State) (fbmem : Ptr) : State :=
  { s with data := Function.update s.data fbmem none }

/-- `fbmem` is what zalloc returns for the fb_mem, zeroed and at no address in use. The return
value of KeyCacheAlloc is not looked at. -/
def fbMemLookup (l : Limits) (s : State) (key : CString) (flags : UInt32) (fbmem : Option Ptr)
    (zalloc : Bool) : Option Outcome :=
  match keyCacheLookup s key with
  | some p => some ⟨0, some p, s⟩
  | none =>
    if flags &&& vDummy = 0 then some ⟨-enxio, none, s⟩
    else
      match fbmem with
      | none => some ⟨losNok, none, s⟩
      | some p =>
        if p = 0 ∨ (s.data p).isSome then none
        else some ⟨0, some p, keyCacheAlloc l (setData s p 0) p key zalloc⟩

def storeData (created : Outcome) (prev : Ptr) : State :=
  match created.result with
  | none => created.state
  | some p => setData created.state p prev

def registerDriver (l : Limits) (s : State) (key : Option CString) (prev : Ptr) (fbmem : Option Ptr)
    (zalloc : Bool) : Option Outcome :=
  match key with
  | none => some ⟨-einval, none, s⟩
  | some key =>
    if l.pathMax ≤ strlen key then some ⟨-einval, none, s⟩
    else
      (fbMemLookup l s key 0 none false).bind fun present =>
        if present.ret = 0 then some ⟨-eexist, none, present.state⟩
        else
          (fbMemLookup l present.state key (vCreate ||| vDummy) fbmem zalloc).map fun created =>
            ⟨created.ret, none, if created.ret = 0 then storeData created prev else created.state⟩

def unregisterDriver (l : Limits) (s : State) (key : Option CString) : Outcome :=
  match key with
  | none => ⟨-einval, none, s⟩
  | some key =>
    if l.pathMax ≤ strlen key then ⟨-einval, none, s⟩
    else
      match keyCacheLookup s key with
      | none => ⟨-enoent, none, s⟩
      | some p => ⟨0, none, free (fbMemKeyCacheFree s p) p⟩

inductive Event where
  | register (key : Option CString) (prev : Ptr) (fbmem : Option Ptr) (zalloc : Bool)
  | unregister (key : Option CString)
  | lookup (key : CString) (flags : UInt32) (fbmem : Option Ptr) (zalloc : Bool)
  deriving DecidableEq

def call (l : Limits) (s : State) : Event → Option Outcome
  | .register key prev fbmem zalloc => registerDriver l s key prev fbmem zalloc
  | .unregister key => some (unregisterDriver l s key)
  | .lookup key flags fbmem zalloc => fbMemLookup l s key flags fbmem zalloc

def system (l : Limits) : System State Event where
  Init s := s = initial
  next s e := (call l s e).map Outcome.state

/-- A name stands for an fb_mem and the private data in it. -/
abbrev Registry := CString → Option (Ptr × Ptr)

def registry (s : State) : Registry := fun name =>
  (keyCacheLookup s name).bind fun p => (s.data p).map fun d => (p, d)

/-- A call that returns `ret` and `result` on a map `m` leaves the map `m'`. -/
def MapStep (l : Limits) (m : Registry) (ret : ℤ) (result : Option Ptr) (m' : Registry) :
    Event → Prop
  | .register key prev _ _ =>
    (ret = 0 → ∃ name p, key = some name ∧ m name = none ∧
      m' = Function.update m name (some (p, prev))) ∧
    (ret ≠ 0 → m' = m)
  | .unregister key =>
    (ret = 0 → ∃ name, key = some name ∧ m' = Function.update m name none) ∧
    (ret ≠ 0 → m' = m ∧ ∀ name, key = some name → strlen name < l.pathMax → m name = none)
  | .lookup name flags _ _ =>
    match m name with
    | some (p, _) => ret = 0 ∧ result = some p ∧ m' = m
    | none =>
      if flags &&& vDummy = 0 then ret ≠ 0 ∧ m' = m
      else m' = m ∨ ret = 0 ∧ ∃ p, result = some p ∧ m' = Function.update m name (some (p, 0))

def Meets (l : Limits) (s : State) (e : Event) : Prop :=
  ∀ r, call l s e = some r → MapStep l (registry s) r.ret r.result (registry r.state) e

/-- A name that register_driver adds is cached, and no name is cached under a shortened length. -/
def Safe (l : Limits) (s : State) : Event → Prop
  | .register key _ fbmem zalloc => ∀ name, key = some name → fbmem ≠ none →
      strlen name < l.pathMax → keyCacheLookup s name = none →
      Caches l name zalloc ∧ strlen name < 256
  | .unregister _ => True
  | .lookup name flags fbmem zalloc => flags &&& vDummy ≠ 0 → fbmem ≠ none →
      keyCacheLookup s name = none → Caches l name zalloc → strlen name < 256

theorem strncmpZero_iff {s t : List UInt8} {n : ℕ} (hs : s.length = n) (ht : t.length = n) :
    strncmpZero n s t = true ↔ s = t := by
  induction n generalizing s t with
  | zero => simp [List.eq_nil_of_length_eq_zero hs, List.eq_nil_of_length_eq_zero ht, strncmpZero]
  | succ n ih =>
    obtain ⟨a, s, rfl⟩ := List.exists_cons_of_length_eq_add_one hs
    obtain ⟨b, t, rfl⟩ := List.exists_cons_of_length_eq_add_one ht
    have htail := ih (Nat.succ.inj hs) (Nat.succ.inj ht)
    rw [strncmpZero, Bool.and_eq_true, htail, beq_iff_eq, List.cons.injEq]

theorem sameName_iff (name : CString) (kc : KeyCache) : sameName name kc = true ↔ kc.name = name := by
  rw [sameName, Bool.and_eq_true, beq_iff_eq, ← kc.fits]
  constructor
  · rintro ⟨hlen, hcmp⟩
    have hbytes := (strncmpZero_iff hlen rfl).mp hcmp
    cases hk : kc.name
    cases name
    simpa [hk] using hbytes
  · rintro rfl
    exact ⟨rfl, (strncmpZero_iff rfl rfl).mpr rfl⟩

theorem cacheLen_of_lt {name : CString} (h : strlen name < 256) :
    (cacheLen name).toNat = strlen name := by
  rw [cacheLen, UInt8.toNat_ofNat']
  exact Nat.mod_eq_of_lt h

theorem newCache_name_of_lt (fbmem : Ptr) {name : CString} (h : strlen name < 256) :
    (newCache fbmem name).name = name := by
  obtain ⟨bytes, hbytes⟩ := name
  simp only [newCache, cacheLen_of_lt h, CString.take, strlen, List.take_length]

theorem newCache_name_ne (fbmem : Ptr) {name : CString} (h : 256 ≤ strlen name) :
    (newCache fbmem name).name ≠ name := by
  intro heq
  have hlen := (newCache fbmem name).fits
  have hlt := (newCache fbmem name).nameLen.toNat_lt
  rw [heq] at hlen
  omega

structure Inv (s : State) : Prop where
  filed : Filed nameHash KeyCache.name s.hashEntrys
  live : ∀ kc, Mem s.hashEntrys kc → (s.data kc.fbmem).isSome
  apart : ∀ a b, Mem s.hashEntrys a → Mem s.hashEntrys b → a.fbmem = b.fbmem → a = b

theorem inv_initial : Inv initial := by
  constructor
  · exact filed_empty nameHash KeyCache.name
  · rintro kc ⟨i, hi⟩
    exact absurd hi List.not_mem_nil
  · rintro a b ⟨i, hi⟩
    exact absurd hi List.not_mem_nil

theorem registry_eq (s : State) (name : CString) :
    registry s name = (find nameHash sameName s.hashEntrys name).bind fun kc =>
      (s.data kc.fbmem).map fun d => (kc.fbmem, d) := by
  rw [registry, keyCacheLookup, Option.bind_map]
  rfl

theorem mem_of_lookup {s : State} {name : CString} {p : Ptr} (h : keyCacheLookup s name = some p) :
    ∃ kc, Mem s.hashEntrys kc ∧ kc.name = name ∧ kc.fbmem = p := by
  obtain ⟨kc, hfind, rfl⟩ := Option.map_eq_some_iff.mp h
  obtain ⟨hmem, hname⟩ := mem_of_find sameName_iff hfind
  exact ⟨kc, hmem, hname, rfl⟩

theorem Inv.lookup_data {s : State} (hI : Inv s) {name : CString} {p : Ptr}
    (h : keyCacheLookup s name = some p) : ∃ d, registry s name = some (p, d) := by
  obtain ⟨kc, hmem, -, rfl⟩ := mem_of_lookup h
  obtain ⟨d, hd⟩ := Option.isSome_iff_exists.mp (hI.live kc hmem)
  exact ⟨d, by rw [registry, h, Option.bind_some, hd, Option.map_some]⟩

theorem registry_none {s : State} {name : CString} (h : keyCacheLookup s name = none) :
    registry s name = none := by rw [registry, h, Option.bind_none]

theorem Inv.fresh {s : State} (hI : Inv s) {p : Ptr} (hp : s.data p = none) {kc : KeyCache}
    (hmem : Mem s.hashEntrys kc) : kc.fbmem ≠ p := by
  rintro rfl
  have hlive := hI.live kc hmem
  rw [hp] at hlive
  cases hlive

theorem setData_data (s : State) (p : Ptr) (d : Ptr) (q : Ptr) :
    (setData s p d).data q = if q = p then some d else s.data q := Function.update_apply ..

theorem registry_setData {s : State} (hI : Inv s) {p : Ptr} (hp : s.data p = none) (d : Ptr) :
    registry (setData s p d) = registry s := by
  funext name
  rw [registry_eq, registry_eq]
  apply Option.bind_congr
  intro kc hfind
  have hne := hI.fresh hp (mem_of_find sameName_iff hfind).1
  rw [setData_data, if_neg hne]

theorem Inv.setData {s : State} (hI : Inv s) {p : Ptr} (d : Ptr) : Inv (setData s p d) := by
  refine ⟨hI.filed, fun kc hmem => ?_, hI.apart⟩
  rw [setData_data]
  split
  · rfl
  · exact hI.live kc hmem

theorem registry_insert {s : State} (hI : Inv s) (kc : KeyCache) (hp : s.data kc.fbmem = none)
    (d : Ptr) : registry (keyCacheInsert (setData s kc.fbmem d) kc)
      = Function.update (registry s) kc.name (some (kc.fbmem, d)) := by
  have hold := registry_setData hI hp d
  funext name
  rw [registry_eq, keyCacheInsert, find_push sameName_iff, ← hold]
  by_cases hname : name = kc.name
  · rw [hname, Function.update_self, Function.update_self, Option.bind_some, setData_data, if_pos rfl,
      Option.map_some]
  · rw [Function.update_of_ne hname, Function.update_of_ne hname, registry_eq]

theorem Inv.insert {s : State} (hI : Inv s) (kc : KeyCache) (hp : s.data kc.fbmem = none)
    (hnew : keyCacheLookup s kc.name = none) (d : Ptr) :
    Inv (keyCacheInsert (FbMem.setData s kc.fbmem d) kc) := by
  have hs := hI.setData (p := kc.fbmem) d
  refine ⟨hs.filed.push sameName_iff (Option.map_eq_none_iff.mp hnew), fun a ha => ?_, ?_⟩
  · rcases mem_push.mp ha with rfl | ha
    · simp [keyCacheInsert, FbMem.setData]
    · exact hs.live a ha
  · intro a b ha hb heq
    rcases mem_push.mp ha with rfl | ha <;> rcases mem_push.mp hb with rfl | hb
    · rfl
    · exact absurd heq.symm (hI.fresh hp hb)
    · exact absurd heq (hI.fresh hp ha)
    · exact hI.apart a b ha hb heq

theorem hashEntrys_free (s : State) (p : Ptr) :
    (free (fbMemKeyCacheFree s p) p).hashEntrys
      = eraseFirst s.hashEntrys fun kc => kc.fbmem == p := by
  simp only [free, fbMemKeyCacheFree]

theorem Inv.release {s : State} (hI : Inv s) {kc : KeyCache} (hmem : Mem s.hashEntrys kc) :
    Inv (free (fbMemKeyCacheFree s kc.fbmem) kc.fbmem) ∧
      registry (free (fbMemKeyCacheFree s kc.fbmem) kc.fbmem)
        = Function.update (registry s) kc.name none := by
  have hhit : (kc.fbmem == kc.fbmem) = true := beq_self_eq_true _
  have hone : ∀ b, Mem s.hashEntrys b → (b.fbmem == kc.fbmem) = true → b = kc := fun b hb heq =>
    hI.apart b kc hb hmem (beq_iff_eq.mp heq)
  have hmem' : ∀ b, Mem (free (fbMemKeyCacheFree s kc.fbmem) kc.fbmem).hashEntrys b ↔
      Mem s.hashEntrys b ∧ b ≠ kc := by
    intro b
    rw [hashEntrys_free]
    exact hI.filed.mem_eraseFirst hmem hhit hone
  have hdata : ∀ b, Mem s.hashEntrys b → b ≠ kc →
      (free (fbMemKeyCacheFree s kc.fbmem) kc.fbmem).data b.fbmem = s.data b.fbmem := by
    intro b hb hne
    apply Function.update_of_ne
    exact fun heq => hne (hI.apart b kc hb hmem heq)
  constructor
  · refine ⟨?_, fun b hb => ?_, fun a b ha hb => ?_⟩
    · rw [hashEntrys_free]
      exact hI.filed.eraseFirst _
    · obtain ⟨hb, hne⟩ := (hmem' b).mp hb
      rw [hdata b hb hne]
      exact hI.live b hb
    · exact hI.apart a b ((hmem' a).mp ha).1 ((hmem' b).mp hb).1
  · funext name
    rw [registry_eq, hashEntrys_free, hI.filed.find_eraseFirst sameName_iff hmem hhit hone]
    by_cases hname : name = kc.name
    · rw [hname, Function.update_self, Function.update_self, Option.bind_none]
    · rw [Function.update_of_ne hname, Function.update_of_ne hname, registry_eq]
      apply Option.bind_congr
      intro b hfind
      obtain ⟨hb, hb'⟩ := mem_of_find sameName_iff hfind
      rw [hdata b hb]
      rintro rfl
      exact hname hb'.symm

theorem lookup_cases {l : Limits} {s : State} {key : CString} {flags : UInt32} {fbmem : Option Ptr}
    {zalloc : Bool} {r : Outcome} (h : fbMemLookup l s key flags fbmem zalloc = some r) :
    (∃ p, keyCacheLookup s key = some p ∧ r = ⟨0, some p, s⟩) ∨
    (keyCacheLookup s key = none ∧ (flags &&& vDummy ≠ 0 → fbmem = none) ∧ r.ret ≠ 0 ∧ r.state = s) ∨
    (keyCacheLookup s key = none ∧ flags &&& vDummy ≠ 0 ∧ ∃ p, fbmem = some p ∧ s.data p = none ∧
      r = ⟨0, some p, keyCacheAlloc l (setData s p 0) p key zalloc⟩) := by
  unfold fbMemLookup at h
  cases hfound : keyCacheLookup s key with
  | some p =>
    rw [hfound] at h
    exact Or.inl ⟨p, rfl, (Option.some.inj h).symm⟩
  | none =>
    simp only [hfound] at h
    apply Or.inr
    split at h
    case isTrue hplain =>
      obtain rfl := Option.some.inj h
      exact Or.inl ⟨rfl, absurd hplain, (by decide : -enxio ≠ 0), rfl⟩
    case isFalse hdummy =>
      cases fbmem with
      | none =>
        obtain rfl := Option.some.inj h
        exact Or.inl ⟨rfl, fun _ => rfl, (by decide : losNok ≠ 0), rfl⟩
      | some p =>
        obtain ⟨hp, hr⟩ := Option.ite_none_left_eq_some.mp h
        have hfree : s.data p = none := by
          rw [← Option.not_isSome_iff_eq_none]
          exact fun hsome => hp (Or.inr hsome)
        exact Or.inr ⟨rfl, hdummy, p, rfl, hfree, (Option.some.inj hr).symm⟩

theorem setData_keyCacheAlloc (l : Limits) (s : State) (p d d' : Ptr) (key : CString) (zalloc : Bool) :
    setData (keyCacheAlloc l (setData s p d) p key zalloc) p d'
      = keyCacheAlloc l (setData s p d') p key zalloc := by
  unfold keyCacheAlloc
  split <;> simp [setData, keyCacheInsert]

theorem register_cases {l : Limits} {s : State} {key : Option CString} {prev : Ptr}
    {fbmem : Option Ptr} {zalloc : Bool} {r : Outcome}
    (h : registerDriver l s key prev fbmem zalloc = some r) :
    (r.ret ≠ 0 ∧ r.state = s ∧ ∀ name, key = some name → strlen name < l.pathMax →
      keyCacheLookup s name = none → fbmem = none) ∨
    ∃ name p, key = some name ∧ strlen name < l.pathMax ∧ keyCacheLookup s name = none ∧
      fbmem = some p ∧ s.data p = none ∧
      r = ⟨0, none, keyCacheAlloc l (setData s p prev) p name zalloc⟩ := by
  unfold registerDriver at h
  cases key with
  | none =>
    obtain rfl := Option.some.inj h
    exact Or.inl ⟨(by decide : -einval ≠ 0), rfl, nofun⟩
  | some name =>
    simp only at h
    split at h
    case isTrue hlen =>
      obtain rfl := Option.some.inj h
      refine Or.inl ⟨(by decide : -einval ≠ 0), rfl, ?_⟩
      rintro _ ⟨⟩ hlt
      exact absurd hlt (Nat.not_lt.mpr hlen)
    case isFalse hlen =>
      obtain ⟨present, hpresent, h⟩ := Option.bind_eq_some_iff.mp h
      obtain ⟨p, hfound, rfl⟩ | ⟨hnone, -, hret, hstate⟩ | ⟨-, hdummy, -⟩ := lookup_cases hpresent
      · obtain rfl := Option.some.inj h
        refine Or.inl ⟨(by decide : -eexist ≠ 0), rfl, ?_⟩
        rintro _ ⟨⟩ - hnone
        rw [hfound] at hnone
        cases hnone
      · rw [if_neg hret, hstate] at h
        obtain ⟨created, hcreated, rfl⟩ := Option.map_eq_some_iff.mp h
        obtain ⟨p, hfound, -⟩ | ⟨-, hdummy, hfail, hstate'⟩ | ⟨-, -, p, rfl, hp, rfl⟩ :=
          lookup_cases hcreated
        · rw [hnone] at hfound
          cases hfound
        · refine Or.inl ⟨hfail, ?_, fun _ _ _ _ => hdummy (by decide)⟩
          simp only [if_neg hfail, hstate']
        · refine Or.inr ⟨name, p, rfl, Nat.lt_of_not_le hlen, hnone, rfl, hp, ?_⟩
          simp only [storeData, if_true, setData_keyCacheAlloc]
      · exact absurd (by decide) hdummy

theorem unregister_cases (l : Limits) (s : State) (key : Option CString) :
    ((unregisterDriver l s key).ret ≠ 0 ∧ (unregisterDriver l s key).state = s ∧
      ∀ name, key = some name → strlen name < l.pathMax → keyCacheLookup s name = none) ∨
    ∃ name p, key = some name ∧ keyCacheLookup s name = some p ∧
      unregisterDriver l s key = ⟨0, none, free (fbMemKeyCacheFree s p) p⟩ := by
  unfold unregisterDriver
  cases key with
  | none => exact Or.inl ⟨(by decide : -einval ≠ 0), rfl, nofun⟩
  | some name =>
    by_cases hlen : l.pathMax ≤ strlen name
    · simp only [if_pos hlen]
      refine Or.inl ⟨(by decide : -einval ≠ 0), trivial, ?_⟩
      rintro _ ⟨⟩ hlt
      exact absurd hlt (Nat.not_lt.mpr hlen)
    · simp only [if_neg hlen]
      cases hfound : keyCacheLookup s name with
      | none =>
        refine Or.inl ⟨(by decide : -enoent ≠ 0), rfl, ?_⟩
        rintro _ ⟨⟩ -
        exact hfound
      | some p => exact Or.inr ⟨name, p, rfl, hfound, rfl⟩

section New

variable {l : Limits} {s : State} {p : Ptr} {name : CString} {zalloc : Bool} (hI : Inv s)
  (hp : s.data p = none) (d : Ptr)
include hI hp

theorem registry_cached (hc : Caches l name zalloc) :
    registry (keyCacheAlloc l (setData s p d) p name zalloc)
      = Function.update (registry s) (newCache p name).name (some (p, d)) := by
  rw [keyCacheAlloc, if_pos hc]
  exact registry_insert hI (newCache p name) hp d

theorem registry_uncached (hc : ¬ Caches l name zalloc) :
    registry (keyCacheAlloc l (setData s p d) p name zalloc) = registry s := by
  rw [keyCacheAlloc, if_neg hc]
  exact registry_setData hI hp d

theorem Inv.keyCacheAlloc (hnew : keyCacheLookup s name = none)
    (hc : Caches l name zalloc → strlen name < 256) :
    Inv (keyCacheAlloc l (FbMem.setData s p d) p name zalloc) := by
  unfold FbMem.keyCacheAlloc
  split
  case isTrue h =>
    apply Inv.insert hI (newCache p name) hp
    rw [newCache_name_of_lt p (hc h)]
    exact hnew
  case isFalse => exact hI.setData d

theorem registry_new_iff (hnew : keyCacheLookup s name = none) :
    registry (keyCacheAlloc l (setData s p d) p name zalloc) name ≠ none ↔
      Caches l name zalloc ∧ strlen name < 256 := by
  by_cases hc : Caches l name zalloc
  · rw [registry_cached hI hp d hc]
    by_cases hlen : strlen name < 256
    · simp [newCache_name_of_lt p hlen, hc, hlen]
    · have hne := (newCache_name_ne p (Nat.le_of_not_lt hlen)).symm
      simp [Function.update_of_ne hne, registry_none hnew, hlen]
  · simp [registry_uncached hI hp d hc, registry_none hnew, hc]

theorem registry_new (hc : Caches l name zalloc) (hlen : strlen name < 256) :
    registry (keyCacheAlloc l (setData s p d) p name zalloc)
      = Function.update (registry s) name (some (p, d)) := by
  rw [registry_cached hI hp d hc, newCache_name_of_lt p hlen]

theorem registry_cut (hc : Caches l name zalloc) :
    registry (keyCacheAlloc l (setData s p d) p name zalloc) (newCache p name).name = some (p, d) ∧
      registry s (newCache p name).name ≠ some (p, d) := by
  constructor
  · rw [registry_cached hI hp d hc, Function.update_self]
  · intro h
    obtain ⟨q, hq, hd⟩ := Option.bind_eq_some_iff.mp h
    obtain ⟨d', hd', heq⟩ := Option.map_eq_some_iff.mp hd
    obtain rfl : q = p := congrArg Prod.fst heq
    rw [hp] at hd'
    cases hd'

end New

theorem register_meets_iff {l : Limits} {s : State} (hI : Inv s) {key : Option CString} {prev : Ptr}
    {fbmem : Option Ptr} {zalloc : Bool} {r : Outcome}
    (h : registerDriver l s key prev fbmem zalloc = some r) :
    MapStep l (registry s) r.ret r.result (registry r.state) (.register key prev fbmem zalloc) ↔
      Safe l s (.register key prev fbmem zalloc) := by
  obtain ⟨hret, hstate, hfbmem⟩ | ⟨name, p, rfl, hlen, hnone, rfl, hp, rfl⟩ := register_cases h
  · apply iff_of_true
    · exact ⟨fun h0 => absurd h0 hret, fun _ => by rw [hstate]⟩
    · intro name hname hsome hshort hnone
      exact absurd (hfbmem name hname hshort hnone) hsome
  · constructor
    · rintro ⟨hbound, -⟩ _ ⟨⟩ - - -
      obtain ⟨_, p', ⟨⟩, -, hupdate⟩ := hbound rfl
      rw [← registry_new_iff hI hp prev hnone, hupdate, Function.update_self]
      exact Option.some_ne_none _
    · intro hsafe
      obtain ⟨hc, h256⟩ := hsafe name rfl (Option.some_ne_none p) hlen hnone
      refine ⟨fun _ => ⟨name, p, rfl, registry_none hnone, ?_⟩, fun h0 => absurd rfl h0⟩
      exact registry_new hI hp prev hc h256

theorem lookup_meets_iff {l : Limits} {s : State} (hI : Inv s) {name : CString} {flags : UInt32}
    {fbmem : Option Ptr} {zalloc : Bool} {r : Outcome}
    (h : fbMemLookup l s name flags fbmem zalloc = some r) :
    MapStep l (registry s) r.ret r.result (registry r.state) (.lookup name flags fbmem zalloc) ↔
      Safe l s (.lookup name flags fbmem zalloc) := by
  obtain ⟨p, hfound, rfl⟩ | ⟨hnone, hdummy, hret, hstate⟩ | ⟨hnone, hdummy, p, rfl, hp, rfl⟩ :=
    lookup_cases h
  · apply iff_of_true
    · obtain ⟨d, hd⟩ := hI.lookup_data hfound
      simp [MapStep, hd]
    · intro _ _ hnone
      rw [hfound] at hnone
      cases hnone
  · apply iff_of_true
    · simp [MapStep, registry_none hnone, hret, hstate]
    · intro hflags hsome
      exact absurd (hdummy hflags) hsome
  · simp only [MapStep, registry_none hnone, if_neg hdummy]
    constructor
    · intro hmeets _ _ _ hc
      by_contra hlen
      obtain ⟨hcut, hold⟩ := registry_cut hI hp 0 hc
      have hne := newCache_name_ne p (Nat.le_of_not_lt hlen)
      obtain hsame | ⟨-, p', -, hupdate⟩ := hmeets
      · rw [hsame] at hcut
        exact hold hcut
      · rw [hupdate, Function.update_of_ne hne] at hcut
        exact hold hcut
    · intro hsafe
      by_cases hc : Caches l name zalloc
      · have hlen := hsafe hdummy (Option.some_ne_none p) hnone hc
        exact Or.inr ⟨trivial, p, rfl, registry_new hI hp 0 hc hlen⟩
      · exact Or.inl (registry_uncached hI hp 0 hc)

theorem unregister_meets {s : State} (hI : Inv s) (l : Limits) (key : Option CString) :
    MapStep l (registry s) (unregisterDriver l s key).ret (unregisterDriver l s key).result
        (registry (unregisterDriver l s key).state) (.unregister key) ∧
      Inv (unregisterDriver l s key).state := by
  obtain ⟨hret, hstate, hnone⟩ | ⟨name, p, rfl, hfound, hr⟩ := unregister_cases l s key
  · rw [hstate]
    refine ⟨⟨fun h0 => absurd h0 hret, fun _ => ⟨rfl, ?_⟩⟩, hI⟩
    intro name hname hlen
    exact registry_none (hnone name hname hlen)
  · rw [hr]
    obtain ⟨kc, hmem, rfl, rfl⟩ := mem_of_lookup hfound
    obtain ⟨hinv, hreg⟩ := hI.release hmem
    exact ⟨⟨fun _ => ⟨kc.name, rfl, hreg⟩, fun h0 => absurd rfl h0⟩, hinv⟩

theorem meets_iff {l : Limits} {s t : State} (hI : Inv s) {e : Event}
    (h : (system l).next s e = some t) : Meets l s e ↔ Safe l s e := by
  obtain ⟨r, hr, -⟩ := Option.map_eq_some_iff.mp h
  have hiff : Meets l s e ↔ MapStep l (registry s) r.ret r.result (registry r.state) e := by
    constructor
    · intro hmeets
      exact hmeets r hr
    · rintro hstep r' hr'
      obtain rfl : r = r' := Option.some.inj (hr.symm.trans hr')
      exact hstep
  rw [hiff]
  cases e with
  | register key prev fbmem zalloc => exact register_meets_iff hI hr
  | unregister key =>
    obtain rfl : unregisterDriver l s key = r := Option.some.inj hr
    exact iff_of_true (unregister_meets hI l key).1 trivial
  | lookup name flags fbmem zalloc => exact lookup_meets_iff hI hr

theorem inv_step {l : Limits} {s t : State} (hI : Inv s) {e : Event} (hsafe : Safe l s e)
    (h : (system l).next s e = some t) : Inv t := by
  obtain ⟨r, hr, rfl⟩ := Option.map_eq_some_iff.mp h
  cases e with
  | register key prev fbmem zalloc =>
    obtain ⟨-, hstate, -⟩ | ⟨name, p, rfl, hlen, hnone, rfl, hp, rfl⟩ := register_cases hr
    · rw [hstate]
      exact hI
    · apply hI.keyCacheAlloc hp prev hnone
      exact fun _ => (hsafe name rfl (Option.some_ne_none p) hlen hnone).2
  | unregister key =>
    obtain rfl : unregisterDriver l s key = r := Option.some.inj hr
    exact (unregister_meets hI l key).2
  | lookup name flags fbmem zalloc =>
    obtain ⟨p, -, rfl⟩ | ⟨-, -, -, hstate⟩ | ⟨hnone, hdummy, p, rfl, hp, rfl⟩ := lookup_cases hr
    · exact hI
    · rw [hstate]
      exact hI
    · exact hI.keyCacheAlloc hp 0 hnone (hsafe hdummy (Option.some_ne_none p) hnone)

/-- The registry is a map of names in exactly the runs that cache every added name whole. -/
theorem registry_iff (l : Limits) (es : List Event) :
    StepsMeet (system l) (Meets l) initial es ↔ StepsMeet (system l) (Safe l) initial es :=
  stepsMeet_iff (fun _ _ _ hI => inv_step hI) (fun _ _ _ hI => meets_iff hI) inv_initial es

def devFb0 : CString := ⟨[47, 100, 101, 118, 47, 102, 98, 48], by decide⟩

/-- register_driver returns 0 although no node could be allocated; the name is not found. -/
theorem registered_not_found :
    ¬ ∀ es, StepsMeet (system ⟨256, 255⟩) (Meets ⟨256, 255⟩) initial es := by
  intro h
  obtain ⟨hmeets, -⟩ := h [.register (some devFb0) 7 (some 1) false] _ rfl
  obtain ⟨_, p, ⟨⟩, -, hupdate⟩ := (hmeets _ rfl).1 rfl
  have hfound := congrFun hupdate devFb0
  rw [Function.update_self] at hfound
  cases hfound

theorem mapStep_keeps {l : Limits} {m m' : Registry} {ret : ℤ} {result : Option Ptr} {e : Event}
    (h : MapStep l m ret result m' e) {name : CString} (hne : e ≠ .unregister (some name))
    {v : Ptr × Ptr} (hv : m name = some v) : m' name = some v := by
  cases e with
  | register key prev fbmem zalloc =>
    by_cases hret : ret = 0
    · obtain ⟨name', p, -, hnone, rfl⟩ := h.1 hret
      have hother : name ≠ name' := by
        rintro rfl
        rw [hnone] at hv
        cases hv
      rw [Function.update_of_ne hother, hv]
    · rw [h.2 hret, hv]
  | unregister key =>
    by_cases hret : ret = 0
    · obtain ⟨name', rfl, rfl⟩ := h.1 hret
      have hother : name ≠ name' := by
        rintro rfl
        exact hne rfl
      rw [Function.update_of_ne hother, hv]
    · rw [(h.2 hret).1, hv]
  | lookup name' flags fbmem zalloc =>
    unfold MapStep at h
    cases hm : m name' with
    | some w =>
      simp only [hm] at h
      rw [h.2.2, hv]
    | none =>
      have hother : name ≠ name' := by
        rintro rfl
        rw [hm] at hv
        cases hv
      simp only [hm] at h
      split at h
      · rw [h.2, hv]
      · obtain rfl | ⟨-, p, -, rfl⟩ := h
        · exact hv
        · rw [Function.update_of_ne hother, hv]

/-- What a name is bound to stays until unregister_driver is called with this name. -/
theorem found_until_unregistered {l : Limits} {s t : State} {es : List Event}
    (h : StepsMeet (system l) (Meets l) s es) (hr : (system l).run s es = some t) {name : CString}
    (hkeep : ∀ e ∈ es, e ≠ .unregister (some name)) {v : Ptr × Ptr}
    (hv : registry s name = some v) : registry t name = some v := by
  induction es generalizing s with
  | nil =>
    obtain rfl : s = t := by simpa using hr
    exact hv
  | cons e es ih =>
    obtain ⟨u, hu, hr⟩ := Option.bind_eq_some_iff.mp hr
    obtain ⟨hmeets, hrest⟩ := h u hu
    obtain ⟨r, hcall, rfl⟩ := Option.map_eq_some_iff.mp hu
    have hkept := mapStep_keeps (hmeets r hcall) (hkeep e List.mem_cons_self) hv
    exact ih hrest hr (fun e' he' => hkeep e' (List.mem_cons_of_mem e he')) hkept

end FbMem
