import DeviceQemu.FbMem
import Mathlib.Data.Fintype.Basic

/-! Framebuffer devices.
fb_register, fb_unregister, fb_open and fb_close of fb.c over the registry of fb_mem.c. What the board
(`up_fb*`), the methods of a vtable and the allocator answer are inputs of a call. -/
namespace FbDevice

open StepSystem FbMem

abbrev fbDevMaxnum : ℕ := 32

def enomem : ℤ := 12
def enodev : ℤ := 19

def decimal (n : ℕ) : List UInt8 := (Nat.toDigits 10 n).map fun c => c.val.toUInt8

theorem zero_not_mem_decimal (n : ℕ) : 0 ∉ decimal n := by
  intro h
  obtain ⟨c, hc, hzero⟩ := List.mem_map.mp h
  have hdigit := Nat.isDigit_of_mem_toDigits (by decide) (by decide) hc
  rw [Char.isDigit, Bool.and_eq_true, decide_eq_true_iff, decide_eq_true_iff] at hdigit
  obtain ⟨hlow, hhigh⟩ := hdigit
  have hval := congrArg UInt8.toNat hzero
  rw [UInt32.toNat_toUInt8] at hval
  have hlow := UInt32.le_iff_toNat_le.mp hlow
  have hhigh := UInt32.le_iff_toNat_le.mp hhigh
  simp at hval hlow hhigh
  omega

theorem length_decimal_le {n : ℕ} (h : n < 1000) : (decimal n).length ≤ 3 := by
  rw [decimal, List.length_map]
  exact (Nat.length_toDigits_le_iff (by decide) (by decide)).mpr h

def devPath : List UInt8 := [47, 100, 101, 118, 47, 102, 98]

def devname (display : Fin fbDevMaxnum) : Option UInt8 → CString
  | none => ⟨devPath ++ decimal display, by
      rw [List.mem_append]
      exact fun h => h.elim (by decide) (zero_not_mem_decimal _)⟩
  | some plane => ⟨devPath ++ (decimal display ++ 46 :: decimal plane.toNat), by
      rw [List.mem_append, List.mem_append, List.mem_cons]
      exact fun h => h.elim (by decide) fun h => h.elim (zero_not_mem_decimal _) fun h =>
        h.elim (by decide) (zero_not_mem_decimal _)⟩

theorem strlen_devname (display : Fin fbDevMaxnum) (plane : Option UInt8) :
    strlen (devname display plane) < 256 := by
  have hdisplay := length_decimal_le (Nat.lt_trans display.isLt (by decide : fbDevMaxnum < 1000))
  cases plane with
  | none =>
    simp only [strlen, devname, List.length_append, devPath, List.length_cons, List.length_nil]
    omega
  | some plane =>
    have hplane := length_decimal_le (Nat.lt_trans plane.toNat_lt (by decide : 2 ^ 8 < 1000))
    simp only [strlen, devname, List.length_append, devPath, List.length_cons, List.length_nil]
    omega

theorem devname_plane_ne (display : Fin fbDevMaxnum) (plane : UInt8) :
    devname display (some plane) ≠ devname display none := by
  intro h
  have hlen := congrArg strlen h
  simp only [strlen, devname, List.length_append, List.length_cons] at hlen
  omega

structure FbChardev where
  vtable : Ptr
  fbmem : Ptr
  fblen : ℕ
  plane : UInt8
  bpp : UInt8
  deriving DecidableEq, Repr

/-- `heap` has the fb_chardev_s blocks that are allocated, `opened` the fb_mem that fb_open gave and
fb_close was not called for. -/
structure State where
  mem : FbMem.State
  gFbDev : Fin fbDevMaxnum → Ptr
  heap : Ptr → Option FbChardev
  opened : List Ptr

def start : State := ⟨initial, fun _ => 0, fun _ => none, []⟩

/-- What fb_register is answered: malloc, up_fbinitialize, up_fbgetvplane, getvideoinfo with its
number of planes, getplaneinfo with what it tells, and the allocations of register_driver. -/
structure Answers where
  block : Ptr
  initialized : ℤ
  vplane : Ptr
  videoinfo : ℤ
  nplanes : ℕ
  planeinfo : ℤ
  fbmem : Ptr
  fblen : ℕ
  bpp : UInt8
  node : Option Ptr
  zalloc : Bool
  deriving DecidableEq, Repr

def displayOf (display : ℤ) : Option (Fin fbDevMaxnum) :=
  if h : 0 ≤ display ∧ display < fbDevMaxnum then
    some ⟨display.toNat, (Int.toNat_lt h.1).mpr h.2⟩
  else none

def Fresh (s : State) (p : Ptr) : Prop := s.heap p = none ∧ s.mem.data p = none

instance (s : State) (p : Ptr) : Decidable (Fresh s p) := by
  unfold Fresh
  infer_instance

def installed (s : State) (display : Fin fbDevMaxnum) (fb : Ptr) (dev : FbChardev)
    (mem : FbMem.State) : State :=
  { s with
    mem := mem
    heap := Function.update s.heap fb (some dev)
    gFbDev := Function.update s.gFbDev display fb }

def uninstalled (s : State) (display : Fin fbDevMaxnum) (mem : FbMem.State) : State :=
  { s with
    mem := mem
    heap := Function.update s.heap (s.gFbDev display) none
    gFbDev := Function.update s.gFbDev display 0 }

def Answers.chardev (a : Answers) (plane : UInt8) : FbChardev :=
  ⟨a.vplane, a.fbmem, a.fblen, plane, a.bpp⟩

def Answers.plane (a : Answers) (plane : UInt8) : Option UInt8 :=
  if a.nplanes < 2 then none else some plane

/-- A block that errout_with_fb frees is as before the call. There is no result where an assertion
fails. -/
def fbRegister (l : Limits) (s : State) (display plane : ℤ) (a : Answers) : Option (ℤ × State) :=
  match displayOf display with
  | none => some (-einval, s)
  | some d =>
    if a.block = 0 then some (-enomem, s)
    else if ¬ Fresh s a.block ∨ ∃ p ∈ a.node, p = a.block ∨ ¬ Fresh s p then none
    else if a.initialized < 0 then some (a.initialized, s)
    else if plane < 0 ∨ 255 < plane then none
    else if a.vplane = 0 then some (a.initialized, s)
    else if a.videoinfo < 0 then some (a.videoinfo, s)
    else if a.nplanes ≤ plane.toNat then none
    else if a.planeinfo < 0 then some (a.planeinfo, s)
    else
      let plane := UInt8.ofNat plane.toNat
      (registerDriver l s.mem (some (devname d (a.plane plane))) a.block a.node a.zalloc).map
        fun r =>
          if r.ret < 0 then (r.ret, { s with mem := r.state })
          else (0, installed s d a.block (a.chardev plane) r.state)

def fbUnregister (l : Limits) (s : State) (display : ℤ) : ℤ × State :=
  match displayOf display with
  | none => (-einval, s)
  | some d => (0, uninstalled s d (unregisterDriver l s.mem (some (devname d none))).state)

/-- The device behind an fb_mem; there is none where it or its block is freed. -/
def device (s : State) (fbmem : Ptr) : Option (Option FbChardev) :=
  (s.mem.data fbmem).bind fun fb => if fb = 0 then some none else (s.heap fb).map some

/-- `method` is what the fb_open of the vtable answers, where it has one. -/
def fbOpen (l : Limits) (s : State) (key : Option CString) (method : Option ℤ) :
    Option (ℤ × State) :=
  match key with
  | none => some (-einval, s)
  | some key =>
    if l.pathMax ≤ strlen key then some (-einval, s)
    else
      match keyCacheLookup s.mem key with
      | none => some (-enxio, s)
      | some fbmem => (device s fbmem).map fun
        | none => (-enodev, s)
        | some fb =>
          if fb.vtable = 0 then (-einval, s)
          else
            match method with
            | none => (0, s)
            | some ret => (ret, if ret = 0 then { s with opened := fbmem :: s.opened } else s)

def fbClose (s : State) (fbmem : Ptr) (method : Option ℤ) : Option (ℤ × State) :=
  let t := { s with opened := s.opened.erase fbmem }
  (device s fbmem).map fun
    | none => (-enodev, t)
    | some fb => if fb.vtable = 0 then (-einval, t) else (method.getD (-einval), t)

inductive Event where
  | fbRegister (display plane : ℤ) (answers : Answers)
  | fbUnregister (display : ℤ)
  | fbOpen (key : Option CString) (method : Option ℤ)
  | fbClose (fbmem : Ptr) (method : Option ℤ)
  deriving DecidableEq

/-- fb_close is called with what fb_open gave. -/
def call (l : Limits) (s : State) : Event → Option (ℤ × State)
  | .fbRegister display plane answers => fbRegister l s display plane answers
  | .fbUnregister display => some (fbUnregister l s display)
  | .fbOpen key method => fbOpen l s key method
  | .fbClose fbmem method => if fbmem ∈ s.opened then fbClose s fbmem method else none

def devices (l : Limits) : System State Event where
  Init s := s = start
  next s e := (call l s e).map Prod.snd

/-- Everything that fb_register asks for is there. -/
structure Answers.Ready (a : Answers) (s : State) (plane : ℤ) : Prop where
  block : a.block ≠ 0
  fresh : Fresh s a.block
  initialized : 0 ≤ a.initialized
  inRange : 0 ≤ plane ∧ plane ≤ 255
  vplane : a.vplane ≠ 0

theorem fbRegister_cases {l : Limits} {s : State} {display plane : ℤ} {a : Answers} {r : ℤ × State}
    (h : fbRegister l s display plane a = some r) :
    (r.2 = s ∧ (r.1 = 0 → a.vplane = 0 ∧ Fresh s a.block)) ∨
    ∃ d m, displayOf display = some d ∧ a.Ready s plane ∧
      registerDriver l s.mem (some (devname d (a.plane (UInt8.ofNat plane.toNat)))) a.block a.node
        a.zalloc = some m ∧ 0 ≤ m.ret ∧
      r = (0, installed s d a.block (a.chardev (UInt8.ofNat plane.toNat)) m.state) := by
  unfold fbRegister at h
  cases hd : displayOf display with
  | none =>
    rw [hd] at h
    obtain rfl := Option.some.inj h
    exact .inl ⟨rfl, fun h0 => absurd h0 (by decide : -einval ≠ 0)⟩
  | some d =>
    simp only [hd] at h
    split at h
    · obtain rfl := Option.some.inj h
      exact .inl ⟨rfl, fun h0 => absurd h0 (by decide : -enomem ≠ 0)⟩
    rename_i hblock
    obtain ⟨hused, h⟩ := Option.ite_none_left_eq_some.mp h
    have hfresh : Fresh s a.block := not_not.mp fun hn => hused (.inl hn)
    split at h
    · rename_i hneg
      obtain rfl := Option.some.inj h
      exact .inl ⟨rfl, fun h0 => absurd h0 (Int.ne_of_lt hneg)⟩
    rename_i hinit
    obtain ⟨hplane, h⟩ := Option.ite_none_left_eq_some.mp h
    split at h
    · rename_i hvplane
      obtain rfl := Option.some.inj h
      exact .inl ⟨rfl, fun _ => ⟨hvplane, hfresh⟩⟩
    rename_i hvplane
    split at h
    · rename_i hneg
      obtain rfl := Option.some.inj h
      exact .inl ⟨rfl, fun h0 => absurd h0 (Int.ne_of_lt hneg)⟩
    obtain ⟨-, h⟩ := Option.ite_none_left_eq_some.mp h
    split at h
    · rename_i hneg
      obtain rfl := Option.some.inj h
      exact .inl ⟨rfl, fun h0 => absurd h0 (Int.ne_of_lt hneg)⟩
    obtain ⟨m, hm, hr⟩ := Option.map_eq_some_iff.mp h
    split at hr
    · rename_i hneg
      obtain rfl := hr
      refine .inl ⟨?_, fun h0 => absurd h0 (Int.ne_of_lt hneg)⟩
      obtain ⟨-, hstate, -⟩ | ⟨_, _, -, -, -, -, -, rfl⟩ := register_cases hm
      · rw [hstate]
      · exact absurd hneg (by decide : ¬ (0 : ℤ) < 0)
    · rename_i hret
      obtain ⟨hlow, hhigh⟩ := not_or.mp hplane
      exact .inr ⟨d, m, rfl, ⟨hblock, hfresh, Int.not_lt.mp hinit,
        ⟨Int.not_lt.mp hlow, Int.not_lt.mp hhigh⟩, hvplane⟩, hm, Int.not_lt.mp hret, hr.symm⟩

theorem fbOpen_cases {l : Limits} {s : State} {key : Option CString} {method : Option ℤ}
    {r : ℤ × State} (h : fbOpen l s key method = some r) :
    r.2 = s ∨ ∃ name fbmem, key = some name ∧ keyCacheLookup s.mem name = some fbmem ∧
      r.2 = { s with opened := fbmem :: s.opened } := by
  unfold fbOpen at h
  cases key with
  | none => exact .inl (congrArg Prod.snd (Option.some.inj h)).symm
  | some name =>
    simp only at h
    split at h
    · exact .inl (congrArg Prod.snd (Option.some.inj h)).symm
    split at h
    · exact .inl (congrArg Prod.snd (Option.some.inj h)).symm
    · rename_i fbmem hfound
      obtain ⟨fb, -, rfl⟩ := Option.map_eq_some_iff.mp h
      split
      · exact .inl rfl
      · split
        · exact .inl rfl
        · split
          · exact .inl rfl
          · split
            · exact .inr ⟨name, fbmem, rfl, hfound, rfl⟩
            · exact .inl rfl

theorem fbClose_state {s : State} {fbmem : Ptr} {method : Option ℤ} {r : ℤ × State}
    (h : fbClose s fbmem method = some r) : r.2 = { s with opened := s.opened.erase fbmem } := by
  obtain ⟨fb, -, rfl⟩ := Option.map_eq_some_iff.mp h
  split
  · rfl
  · split <;> rfl

theorem data_keyCacheAlloc (l : Limits) (s : FbMem.State) (p : Ptr) (name : CString) (zalloc : Bool) :
    (keyCacheAlloc l s p name zalloc).data = s.data := by
  unfold keyCacheAlloc
  split <;> rfl

/-- What register_driver leaves of a registry where it does not report an error. -/
structure Added (l : Limits) (s t : FbMem.State) (name : CString) (prev : Ptr) (node : Option Ptr)
    (zalloc : Bool) : Prop where
  inv : FbMem.Inv t
  short : strlen name < l.pathMax
  new : keyCacheLookup s name = none
  data : ∀ p, t.data p = s.data p ∨ s.data p = none ∧ t.data p = some prev
  registry : registry t = registry s ∧ ¬ (node ≠ none ∧ Caches l name zalloc) ∨
    ∃ p, registry t = Function.update (registry s) name (some (p, prev)) ∧ node ≠ none ∧
      Caches l name zalloc

theorem registerDriver_new {l : Limits} {s : FbMem.State} {name : CString} {prev : Ptr}
    {node : Option Ptr} {zalloc : Bool} {m : FbMem.Outcome}
    (h : registerDriver l s (some name) prev node zalloc = some m) (hret : 0 ≤ m.ret) :
    strlen name < l.pathMax ∧ keyCacheLookup s name = none := by
  unfold registerDriver at h
  simp only at h
  split at h
  · obtain rfl := Option.some.inj h
    exact absurd hret (by decide : ¬ 0 ≤ -einval)
  rename_i hlen
  refine ⟨Nat.not_le.mp hlen, ?_⟩
  cases hfound : keyCacheLookup s name with
  | none => rfl
  | some p =>
    rw [fbMemLookup, hfound] at h
    obtain rfl := Option.some.inj h
    exact absurd hret (by decide : ¬ 0 ≤ -eexist)

theorem registerDriver_added {l : Limits} {s : FbMem.State} (hI : FbMem.Inv s) {name : CString}
    (hname : strlen name < 256) {prev : Ptr} {node : Option Ptr} {zalloc : Bool} {m : FbMem.Outcome}
    (h : registerDriver l s (some name) prev node zalloc = some m) (hret : 0 ≤ m.ret) :
    Added l s m.state name prev node zalloc := by
  obtain ⟨hshort, hnew⟩ := registerDriver_new h hret
  obtain ⟨-, hstate, hnode⟩ | ⟨_, p, ⟨⟩, -, -, rfl, hp, rfl⟩ := register_cases h
  · rw [hstate]
    exact ⟨hI, hshort, hnew, fun _ => .inl rfl,
      .inl ⟨rfl, fun hn => hn.1 (hnode name rfl hshort hnew)⟩⟩
  · refine ⟨hI.keyCacheAlloc hp prev hnew fun _ => hname, hshort, hnew, fun q => ?_, ?_⟩
    · rw [data_keyCacheAlloc, setData_data]
      by_cases hq : q = p
      · rw [if_pos hq, hq]
        exact .inr ⟨hp, rfl⟩
      · rw [if_neg hq]
        exact .inl rfl
    · by_cases hc : Caches l name zalloc
      · exact .inr ⟨p, registry_new hI hp prev hc hname, Option.some_ne_none p, hc⟩
      · exact .inl ⟨registry_uncached hI hp prev hc, fun hn => hc hn.2⟩

/-- What unregister_driver leaves of a registry. -/
structure Removed (s t : FbMem.State) (name : CString) : Prop where
  inv : FbMem.Inv t
  registry : registry t = Function.update (registry s) name none
  data : ∀ p, t.data p = if keyCacheLookup s name = some p then none else s.data p

theorem unregisterDriver_removed {l : Limits} {s : FbMem.State} (hI : FbMem.Inv s) {name : CString}
    (hshort : registry s name ≠ none → strlen name < l.pathMax) :
    Removed s (unregisterDriver l s (some name)).state name := by
  have hmeets := unregister_meets hI l (some name)
  obtain ⟨-, hstate, hnone⟩ | ⟨_, p, ⟨⟩, hfound, hr⟩ := unregister_cases l s (some name)
  · have hlost : registry s name = none := by
      by_contra hn
      exact hn (registry_none (hnone name rfl (hshort hn)))
    refine ⟨hmeets.2, ?_, fun p => ?_⟩
    · rw [hstate, ← hlost, Function.update_eq_self]
    · have hne : keyCacheLookup s name ≠ some p := by
        intro hp
        obtain ⟨d, hd⟩ := hI.lookup_data hp
        rw [hlost] at hd
        cases hd
      rw [hstate, if_neg hne]
  · obtain ⟨_, ⟨⟩, hreg⟩ := hmeets.1.1 (by rw [hr])
    refine ⟨hmeets.2, hreg, fun q => ?_⟩
    by_cases hq : p = q
    · rw [hr, hfound, if_pos (congrArg some hq), hq]
      exact Function.update_self ..
    · rw [hr, hfound, if_neg fun heq => hq (Option.some.inj heq)]
      exact Function.update_of_ne (Ne.symm hq) ..

structure Inv (l : Limits) (s : State) : Prop where
  mem : FbMem.Inv s.mem
  null : s.heap 0 = none
  kept : ∀ d, s.gFbDev d ≠ 0 → (s.heap (s.gFbDev d)).isSome
  apart : ∀ d d', s.gFbDev d ≠ 0 → s.gFbDev d = s.gFbDev d' → d = d'
  nonzero : ∀ p fb, s.mem.data p = some fb → fb ≠ 0
  vtable : ∀ fb dev, s.heap fb = some dev → dev.vtable ≠ 0
  short : ∀ name, registry s.mem name ≠ none → strlen name < l.pathMax

theorem inv_start (l : Limits) : Inv l start := by
  refine ⟨inv_initial, rfl, fun _ h => absurd rfl h, fun _ _ h => absurd rfl h, ?_, ?_, ?_⟩
  · rintro p fb ⟨⟩
  · rintro fb dev ⟨⟩
  · exact fun name h => absurd rfl h

theorem gFbDev_installed (s : State) (d d' : Fin fbDevMaxnum) (fb : Ptr) (dev : FbChardev)
    (mem : FbMem.State) :
    (installed s d fb dev mem).gFbDev d' = if d' = d then fb else s.gFbDev d' :=
  Function.update_apply ..

theorem heap_installed (s : State) (d : Fin fbDevMaxnum) (fb q : Ptr) (dev : FbChardev)
    (mem : FbMem.State) :
    (installed s d fb dev mem).heap q = if q = fb then some dev else s.heap q :=
  Function.update_apply ..

theorem Inv.not_fresh {l : Limits} {s : State} (hI : Inv l s) {fb : Ptr} (hfresh : Fresh s fb)
    {d : Fin fbDevMaxnum} (hd : s.gFbDev d ≠ 0) : s.gFbDev d ≠ fb := by
  rintro rfl
  have hsome := hI.kept d hd
  rw [hfresh.1] at hsome
  cases hsome

theorem Inv.installed {l : Limits} {s : State} (hI : Inv l s) {d : Fin fbDevMaxnum} {fb : Ptr}
    {dev : FbChardev} {name : CString} {node : Option Ptr} {zalloc : Bool} {mem : FbMem.State}
    (hfb : fb ≠ 0) (hfresh : Fresh s fb) (hdev : dev.vtable ≠ 0)
    (h : Added l s.mem mem name fb node zalloc) : Inv l (installed s d fb dev mem) := by
  refine ⟨h.inv, ?_, fun d' hd' => ?_, fun d' d'' hd' heq => ?_, fun p q hq => ?_, fun q e he => ?_,
    fun n hn => ?_⟩
  · rw [heap_installed, if_neg (Ne.symm hfb)]
    exact hI.null
  · rw [gFbDev_installed] at hd' ⊢
    rw [heap_installed]
    by_cases hd : d' = d
    · rw [if_pos hd, if_pos rfl]
      rfl
    · rw [if_neg hd] at hd' ⊢
      rw [if_neg (hI.not_fresh hfresh hd')]
      exact hI.kept d' hd'
  · rw [gFbDev_installed] at hd' heq
    rw [gFbDev_installed] at heq
    by_cases hd : d' = d <;> by_cases he : d'' = d
    · rw [hd, he]
    · rw [if_pos hd, if_neg he] at heq
      exact absurd heq.symm (hI.not_fresh hfresh (heq ▸ hfb))
    · rw [if_neg hd, if_pos he] at heq
      rw [if_neg hd] at hd'
      exact absurd heq (hI.not_fresh hfresh hd')
    · rw [if_neg hd, if_neg he] at heq
      rw [if_neg hd] at hd'
      exact hI.apart d' d'' hd' heq
  · obtain hdata | ⟨-, hdata⟩ := h.data p
    · exact hI.nonzero p q (hdata ▸ hq)
    · obtain rfl := Option.some.inj (hdata.symm.trans hq)
      exact hfb
  · rw [heap_installed] at he
    split at he
    · obtain rfl := Option.some.inj he
      exact hdev
    · exact hI.vtable q e he
  · obtain ⟨hreg, -⟩ | ⟨p, hreg, -, -⟩ := h.registry
    · exact hI.short n (hreg ▸ hn)
    · by_cases hname : n = name
      · exact hname ▸ h.short
      · refine hI.short n fun hnone => hn ?_
        exact (congrFun hreg n).trans ((Function.update_of_ne hname ..).trans hnone)

theorem gFbDev_uninstalled (s : State) (d d' : Fin fbDevMaxnum) (mem : FbMem.State) :
    (uninstalled s d mem).gFbDev d' = if d' = d then 0 else s.gFbDev d' :=
  Function.update_apply ..

theorem heap_uninstalled (s : State) (d : Fin fbDevMaxnum) (q : Ptr) (mem : FbMem.State) :
    (uninstalled s d mem).heap q = if q = s.gFbDev d then none else s.heap q :=
  Function.update_apply ..

theorem Inv.uninstalled {l : Limits} {s : State} (hI : Inv l s) (d : Fin fbDevMaxnum)
    {mem : FbMem.State} (h : Removed s.mem mem (devname d none)) : Inv l (uninstalled s d mem) := by
  refine ⟨h.inv, ?_, fun d' hd' => ?_, fun d' d'' hd' heq => ?_, fun p q hq => ?_, fun q e he => ?_,
    fun n hn => ?_⟩
  · rw [heap_uninstalled]
    split
    · rfl
    · exact hI.null
  · rw [gFbDev_uninstalled] at hd' ⊢
    by_cases hd : d' = d
    · exact absurd (if_pos hd) hd'
    · rw [if_neg hd] at hd' ⊢
      rw [heap_uninstalled, if_neg fun heq => hd (hI.apart d' d hd' heq)]
      exact hI.kept d' hd'
  · rw [gFbDev_uninstalled] at hd' heq
    rw [gFbDev_uninstalled] at heq
    by_cases hd : d' = d
    · exact absurd (if_pos hd) hd'
    · rw [if_neg hd] at hd' heq
      by_cases he : d'' = d
      · exact absurd (heq.trans (if_pos he)) hd'
      · exact hI.apart d' d'' hd' (heq.trans (if_neg he))
  · have hdata := (h.data p).symm.trans hq
    obtain ⟨-, hdata⟩ := Option.ite_none_left_eq_some.mp hdata
    exact hI.nonzero p q hdata
  · rw [heap_uninstalled] at he
    obtain ⟨-, he⟩ := Option.ite_none_left_eq_some.mp he
    exact hI.vtable q e he
  · refine hI.short n fun hnone => hn ?_
    refine (congrFun h.registry n).trans ?_
    rw [Function.update_apply]
    split
    · rfl
    · exact hnone

theorem Inv.withOpened {l : Limits} {s : State} (hI : Inv l s) (opened : List Ptr) :
    Inv l { s with opened := opened } :=
  ⟨hI.mem, hI.null, hI.kept, hI.apart, hI.nonzero, hI.vtable, hI.short⟩

/-- A step leaves the state but for what is opened, or installs or uninstalls a device. -/
inductive Effect (l : Limits) (s : State) : Event → State → Prop where
  | none {e : Event} (he : ∀ display, e = .fbUnregister display → displayOf display = Option.none) :
      Effect l s e s
  | installed {display plane : ℤ} {a : Answers} {d : Fin fbDevMaxnum} {mem : FbMem.State}
      (ready : a.Ready s plane)
      (added : Added l s.mem mem (devname d (a.plane (UInt8.ofNat plane.toNat))) a.block a.node
        a.zalloc) :
      Effect l s (.fbRegister display plane a)
        (installed s d a.block (a.chardev (UInt8.ofNat plane.toNat)) mem)
  | uninstalled {display : ℤ} {d : Fin fbDevMaxnum} {mem : FbMem.State}
      (hd : displayOf display = some d) (removed : Removed s.mem mem (devname d Option.none)) :
      Effect l s (.fbUnregister display) (uninstalled s d mem)
  | opened {name : CString} {fbmem : Ptr} {method : Option ℤ}
      (found : keyCacheLookup s.mem name = some fbmem) :
      Effect l s (.fbOpen (some name) method) { s with opened := fbmem :: s.opened }
  | closed {fbmem : Ptr} {method : Option ℤ} :
      Effect l s (.fbClose fbmem method) { s with opened := s.opened.erase fbmem }

theorem effect_next {l : Limits} {s t : State} (hI : Inv l s) {e : Event}
    (h : (devices l).next s e = some t) : Effect l s e t := by
  obtain ⟨r, hr, rfl⟩ := Option.map_eq_some_iff.mp h
  cases e with
  | fbRegister display plane a =>
    obtain ⟨hs, -⟩ | ⟨d, m, -, hready, hm, hret, rfl⟩ := fbRegister_cases hr
    · rw [hs]
      exact .none nofun
    · exact .installed hready (registerDriver_added hI.mem (strlen_devname ..) hm hret)
  | fbUnregister display =>
    obtain rfl := Option.some.inj hr
    unfold fbUnregister
    cases hd : displayOf display with
    | none =>
      refine .none ?_
      rintro _ ⟨⟩
      exact hd
    | some d => exact .uninstalled hd (unregisterDriver_removed hI.mem (hI.short _))
  | fbOpen key method =>
    obtain hs | ⟨name, fbmem, rfl, hfound, hs⟩ := fbOpen_cases hr
    · rw [hs]
      exact .none nofun
    · rw [hs]
      exact .opened hfound
  | fbClose fbmem method =>
    obtain ⟨-, hr⟩ := Option.ite_none_right_eq_some.mp hr
    rw [fbClose_state hr]
    exact .closed

theorem Effect.inv {l : Limits} {s t : State} (hI : Inv l s) {e : Event} (h : Effect l s e t) :
    Inv l t := by
  cases h with
  | none => exact hI
  | installed ready added => exact hI.installed ready.block ready.fresh ready.vplane added
  | uninstalled _ removed => exact hI.uninstalled _ removed
  | opened found => exact hI.withOpened _
  | closed => exact hI.withOpened _

/-- No call of fb_open touches a freed device, nor fb_close of what is open. -/
def Usable (l : Limits) (s : State) : Prop :=
  (∀ key method, (fbOpen l s key method).isSome) ∧
    ∀ fbmem ∈ s.opened, ∀ method, (fbClose s fbmem method).isSome

/-- fb_unregister is not called for a display whose device has the name of a plane, or is open. -/
def Unused (s : State) : Event → Prop
  | .fbUnregister display => ∀ d, displayOf display = some d →
      (∀ plane fbmem, registry s.mem (devname d (some plane)) ≠ some (fbmem, s.gFbDev d)) ∧
        ∀ fbmem ∈ s.opened, keyCacheLookup s.mem (devname d none) ≠ some fbmem
  | _ => True

/-- Names lead to devices that are there, and what is open has a name. -/
structure Alive (s : State) : Prop where
  named : ∀ name fbmem fb, registry s.mem name = some (fbmem, fb) → (s.heap fb).isSome
  opened : ∀ fbmem ∈ s.opened, ∃ name fb, registry s.mem name = some (fbmem, fb)
  names : ∀ name fbmem d, registry s.mem name = some (fbmem, s.gFbDev d) →
    name = devname d none ∨ ∃ plane, name = devname d (some plane)

theorem alive_start : Alive start := by
  refine ⟨?_, ?_, ?_⟩
  · rintro name fbmem fb ⟨⟩
  · exact fun _ h => absurd h List.not_mem_nil
  · rintro name fbmem d ⟨⟩

theorem data_of_registry {s : FbMem.State} {name : CString} {fbmem fb : Ptr}
    (h : registry s name = some (fbmem, fb)) :
    keyCacheLookup s name = some fbmem ∧ s.data fbmem = some fb := by
  obtain ⟨p, hp, h⟩ := Option.bind_eq_some_iff.mp h
  obtain ⟨d, hd, ⟨⟩⟩ := Option.map_eq_some_iff.mp h
  exact ⟨hp, hd⟩

theorem device_isSome {l : Limits} {s : State} (hI : Inv l s) {fbmem fb : Ptr}
    (hdata : s.mem.data fbmem = some fb) : (device s fbmem).isSome = (s.heap fb).isSome := by
  rw [device, hdata, Option.bind_some, if_neg (hI.nonzero fbmem fb hdata), Option.isSome_map]

theorem Alive.usable {l : Limits} {s : State} (hI : Inv l s) (h : Alive s) : Usable l s := by
  have hdevice : ∀ name fbmem fb, registry s.mem name = some (fbmem, fb) → (device s fbmem).isSome := by
    intro name fbmem fb hreg
    rw [device_isSome hI (data_of_registry hreg).2]
    exact h.named name fbmem fb hreg
  refine ⟨fun key method => ?_, fun fbmem hmem method => ?_⟩
  · unfold fbOpen
    cases key with
    | none => rfl
    | some name =>
      simp only
      split
      · rfl
      · cases hfound : keyCacheLookup s.mem name with
        | none => rfl
        | some fbmem =>
          obtain ⟨fb, hreg⟩ := hI.mem.lookup_data hfound
          simp only [Option.isSome_map]
          exact hdevice name fbmem fb hreg
  · obtain ⟨name, fb, hreg⟩ := h.opened fbmem hmem
    rw [fbClose, Option.isSome_map]
    exact hdevice name fbmem fb hreg

theorem Alive.installed {l : Limits} {s : State} (hI : Inv l s) (h : Alive s) {d : Fin fbDevMaxnum}
    {fb : Ptr} {dev : FbChardev} {plane : Option UInt8} {node : Option Ptr} {zalloc : Bool}
    {mem : FbMem.State} (hfb : fb ≠ 0) (hfresh : Fresh s fb)
    (hadd : Added l s.mem mem (devname d plane) fb node zalloc) :
    Alive (installed s d fb dev mem) := by
  -- A name leads where it did, or is the new one.
  have hcases : ∀ name p q, registry mem name = some (p, q) →
      registry s.mem name = some (p, q) ∨ name = devname d plane ∧ q = fb := by
    intro name p q hreg
    obtain ⟨hsame, -⟩ | ⟨r, hnew, -, -⟩ := hadd.registry
    · exact .inl (hsame ▸ hreg)
    · rw [hnew, Function.update_apply] at hreg
      split at hreg
      · rename_i hname
        obtain ⟨-, rfl⟩ := Prod.mk.inj (Option.some.inj hreg)
        exact .inr ⟨hname, rfl⟩
      · exact .inl hreg
  refine ⟨fun name p q hreg => ?_, fun p hp => ?_, fun name p d' hreg => ?_⟩
  · rw [heap_installed]
    obtain hold | ⟨-, rfl⟩ := hcases name p q hreg
    · split
      · rfl
      · exact h.named name p q hold
    · rw [if_pos rfl]
      rfl
  · obtain ⟨name, q, hreg⟩ := h.opened p hp
    refine ⟨name, q, ?_⟩
    obtain ⟨hsame, -⟩ | ⟨r, hnew, -, -⟩ := hadd.registry
    · exact (congrFun hsame name).trans hreg
    · have hne : name ≠ devname d plane := by
        rintro rfl
        rw [registry_none hadd.new] at hreg
        cases hreg
      exact (congrFun hnew name).trans ((Function.update_of_ne hne ..).trans hreg)
  · obtain hold | ⟨rfl, hq⟩ := hcases name p _ hreg
    · rw [gFbDev_installed] at hold
      split at hold
      · have hsome := h.named name p fb hold
        rw [hfresh.1] at hsome
        cases hsome
      · exact h.names name p d' hold
    · rw [gFbDev_installed] at hq
      have hd : d' = d := by
        by_contra hd
        rw [if_neg hd] at hq
        exact hI.not_fresh hfresh (hq ▸ hfb) hq
      subst hd
      cases plane with
      | none => exact .inl rfl
      | some plane => exact .inr ⟨plane, rfl⟩

theorem Alive.uninstalled {l : Limits} {s : State} (hI : Inv l s) (h : Alive s)
    {d : Fin fbDevMaxnum} {mem : FbMem.State} (hrem : Removed s.mem mem (devname d none))
    (hplane : ∀ plane fbmem, registry s.mem (devname d (some plane)) ≠ some (fbmem, s.gFbDev d))
    (hopen : ∀ fbmem ∈ s.opened, keyCacheLookup s.mem (devname d none) ≠ some fbmem) :
    Alive (uninstalled s d mem) := by
  have hold : ∀ name p q, registry mem name = some (p, q) →
      name ≠ devname d none ∧ registry s.mem name = some (p, q) := by
    intro name p q hreg
    rw [hrem.registry, Function.update_apply] at hreg
    exact Option.ite_none_left_eq_some.mp hreg
  refine ⟨fun name p q hreg => ?_, fun p hp => ?_, fun name p d' hreg => ?_⟩
  · obtain ⟨hname, hreg⟩ := hold name p q hreg
    have hq : q ≠ s.gFbDev d := by
      rintro rfl
      obtain hnone | ⟨plane, rfl⟩ := h.names name p d hreg
      · exact hname hnone
      · exact hplane plane p hreg
    rw [heap_uninstalled, if_neg hq]
    exact h.named name p q hreg
  · obtain ⟨name, q, hreg⟩ := h.opened p hp
    have hname : name ≠ devname d none := by
      rintro rfl
      exact hopen p hp (data_of_registry hreg).1
    exact ⟨name, q, (congrFun hrem.registry name).trans ((Function.update_of_ne hname ..).trans hreg)⟩
  · obtain ⟨-, hreg⟩ := hold name p _ hreg
    rw [gFbDev_uninstalled] at hreg
    split at hreg
    · exact absurd rfl (hI.nonzero p 0 (data_of_registry hreg).2)
    · exact h.names name p d' hreg

theorem alive_step {l : Limits} {s t : State} (hI : Inv l s) (h : Alive s) {e : Event}
    (hu : Unused s e) (hn : Effect l s e t) : Alive t := by
  cases hn with
  | none => exact h
  | installed ready added => exact h.installed hI ready.block ready.fresh added
  | uninstalled hd removed =>
    obtain ⟨hplane, hopen⟩ := hu _ hd
    exact h.uninstalled hI removed hplane hopen
  | @opened name fbmem method found =>
    refine ⟨h.named, fun p hp => ?_, h.names⟩
    rcases List.mem_cons.mp hp with rfl | hp
    · obtain ⟨fb, hreg⟩ := hI.mem.lookup_data found
      exact ⟨name, fb, hreg⟩
    · exact h.opened p hp
  | closed => exact ⟨h.named, fun p hp => h.opened p (List.mem_of_mem_erase hp), h.names⟩

/-- A device that is freed where it has another name, or is open, is touched by a call. -/
theorem not_usable {l : Limits} {s : State} (hI : Inv l s) {d : Fin fbDevMaxnum}
    {mem : FbMem.State} (hrem : Removed s.mem mem (devname d none))
    (h : (∃ plane fbmem, registry s.mem (devname d (some plane)) = some (fbmem, s.gFbDev d)) ∨
      ∃ fbmem ∈ s.opened, keyCacheLookup s.mem (devname d none) = some fbmem) :
    ¬ Usable l (uninstalled s d mem) := by
  intro hu
  have hinv := hI.uninstalled d hrem
  obtain ⟨plane, fbmem, hreg⟩ | ⟨fbmem, hmem, hfound⟩ := h
  · have hreg' : registry mem (devname d (some plane)) = some (fbmem, s.gFbDev d) :=
      (congrFun hrem.registry _).trans ((Function.update_of_ne (devname_plane_ne d plane) ..).trans hreg)
    obtain ⟨hfound, hdata⟩ := data_of_registry hreg'
    have hsome := hu.1 (some (devname d (some plane))) none
    have hshort : ¬ l.pathMax ≤ strlen (devname d (some plane)) := by
      refine Nat.not_le.mpr (hI.short _ ?_)
      rw [hreg]
      exact Option.some_ne_none _
    have hdevice := device_isSome hinv (s := uninstalled s d mem) hdata
    simp only [fbOpen, if_neg hshort] at hsome
    rw [show keyCacheLookup (uninstalled s d mem).mem _ = _ from hfound] at hsome
    simp only [Option.isSome_map] at hsome
    rw [hdevice, heap_uninstalled, if_pos rfl] at hsome
    cases hsome
  · have hsome := hu.2 fbmem hmem none
    have hdata := (hrem.data fbmem).trans (if_pos hfound)
    rw [fbClose, Option.isSome_map, device] at hsome
    rw [show (uninstalled s d mem).mem.data fbmem = none from hdata] at hsome
    cases hsome

theorem not_usable_step {l : Limits} {s t : State} (hI : Inv l s) {e : Event} (hu : ¬ Unused s e)
    (hn : Effect l s e t) : ¬ Usable l t := by
  cases hn with
  | none he =>
    cases e with
    | fbUnregister display =>
      refine absurd (fun d hd => ?_) hu
      rw [he display rfl] at hd
      cases hd
    | _ => exact absurd trivial hu
  | installed => exact absurd trivial hu
  | @uninstalled display d mem hd removed =>
    apply not_usable hI removed
    by_contra hn
    obtain ⟨hplane, hopen⟩ := not_or.mp hn
    refine hu fun d' hd' => ?_
    obtain rfl := Option.some.inj (hd.symm.trans hd')
    exact ⟨fun plane fbmem hreg => hplane ⟨plane, fbmem, hreg⟩,
      fun fbmem hmem hfound => hopen ⟨fbmem, hmem, hfound⟩⟩
  | opened => exact absurd trivial hu
  | closed => exact absurd trivial hu

/-- In every state of a run, whatever is opened and closed, no call touches a freed device exactly if
fb_unregister is called for no display whose device has the name of a plane, or is open. -/
theorem devices_usable_iff (l : Limits) (es : List Event) :
    StatesMeet (devices l) (Usable l) start es ↔ StepsMeet (devices l) Unused start es := by
  refine statesMeet_iff_stepsMeet (I := fun s => Inv l s ∧ Alive s) (fun s hs => hs.2.usable hs.1)
    ?_ ?_ ⟨inv_start l, alive_start⟩ es
  · rintro s e t ⟨hI, hs⟩ hu hn
    have heffect := effect_next hI hn
    exact ⟨heffect.inv hI, alive_step hI hs hu heffect⟩
  · rintro s e t ⟨hI, -⟩ hu hn
    exact not_usable_step hI hu (effect_next hI hn)

/-- What fb_open finds under a name. -/
def Registered (s : State) (name : CString) (fb : Ptr) (dev : FbChardev) : Prop :=
  (∃ fbmem, registry s.mem name = some (fbmem, fb)) ∧ s.heap fb = some dev

def gpuAnswers (zalloc : Bool) : Answers := ⟨1, 0, 2, 0, 1, 0, 3, 1024, 32, some 4, zalloc⟩

/-- Two planes of a display are registered, then the display is unregistered. -/
example : ¬ StepsMeet (devices ⟨256, 255⟩) Unused start
    [.fbRegister 0 0 ⟨1, 0, 2, 0, 2, 0, 3, 1024, 32, some 4, true⟩, .fbUnregister 0] := by
  intro h
  obtain ⟨-, h⟩ := h _ rfl
  obtain ⟨hu, -⟩ := h _ rfl
  exact (hu 0 rfl).1 0 4 rfl

end FbDevice
