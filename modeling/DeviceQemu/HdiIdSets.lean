import DeviceQemu.HdiDisplay
import DeviceQemu.IdLedger

/-! Ids of layers and displays.
GetIdleId of HdiLayer and of HdiDisplay, which hand out ids from statics shared by all
objects, and the constructors and destructors that call them. -/
namespace HdiIdSets

open StepSystem
open HdiDisplay (idleLoop invalideLayerId)

def invalideDisplayId : UInt32 := 0xffffffff

/-- The statics mIdleId and mIdSets, of HdiLayer or of HdiDisplay. -/
structure IdSets where
  mIdleId : UInt32
  mIdSets : Finset UInt32

/-- Both classes have the same loop, and invalid ids of the same value. -/
def IdSets.getIdleId (s : IdSets) : Option (UInt32 × IdSets) :=
  (idleLoop s.mIdSets s.mIdleId (2 ^ 32) (s.mIdleId % invalideLayerId)).map fun (id, idle) =>
    (id, ⟨idle + 1, insert id s.mIdSets⟩)

def IdSets.erase (s : IdSets) (id : UInt32) : IdSets := { s with mIdSets := s.mIdSets.erase id }

/-- An HdiLayer before and after its Init. -/
inductive Layer where
  | created
  | initialised (mId : UInt32)
  deriving DecidableEq, Repr

def Layer.mId : Layer → UInt32
  | .created => 0
  | .initialised mId => mId

/-- mLayersMap holds layers that CreateLayer has initialised, each under its own id. -/
structure Display where
  mId : UInt32
  mClientLayer : Option Layer
  mLayersMap : List UInt32
  deriving DecidableEq, Repr

def Display.new : Display := ⟨invalideDisplayId, none, []⟩

/-- `dying` are the layers that a running destructor of a display has yet to destroy. `hung`
tells that a call of GetIdleId does not return. -/
structure State where
  layerIds : IdSets
  displayIds : IdSets
  displays : List Display
  dying : List Layer
  hung : Bool

def initial : State := ⟨⟨0, ∅⟩, ⟨0, ∅⟩, [], [], false⟩

def destroyHdiLayer (s : State) (l : Layer) : State :=
  { s with layerIds := s.layerIds.erase l.mId }

/-- `emplace` destroys the new layer when the map has its id already. -/
def emplaceLayer (s : State) (d : ℕ) (display : Display) (id : UInt32) : State :=
  if id ∈ display.mLayersMap then destroyHdiLayer s (.initialised id)
  else
    let mLayersMap := id :: display.mLayersMap
    { s with displays := s.displays.set d { display with mLayersMap } }

/-- CreateLayer of the display at `d`. A layer whose Init fails is destroyed. -/
def createLayer (s : State) (d : ℕ) (layerInfo layerId : Bool) : Option State :=
  s.displays[d]?.map fun display =>
    if !layerInfo then s
    else if !layerId then s
    else
      match s.layerIds.getIdleId with
      | none => { s with hung := true }
      | some (id, layerIds) =>
        let s := { s with layerIds }
        if id = invalideLayerId then destroyHdiLayer s .created
        else emplaceLayer s d display id

def destroyLayer (s : State) (d : ℕ) (layerId : UInt32) : Option State :=
  s.displays[d]?.map fun display =>
    if layerId ∉ display.mLayersMap then s
    else
      let mLayersMap := display.mLayersMap.erase layerId
      destroyHdiLayer { s with displays := s.displays.set d { display with mLayersMap } }
        (.initialised layerId)

/-- Init of HdiDisplay. The client layer it makes is not initialised. -/
def initDisplay (s : State) (display : Display) : State :=
  match s.displayIds.getIdleId with
  | none => { s with hung := true }
  | some (id, displayIds) =>
    let s := { s with displayIds }
    if id = invalideDisplayId then { s with displays := display :: s.displays }
    else
      let display := { display with mId := id, mClientLayer := some .created }
      { s with displays := display :: s.displays }

/-- `init` says whether DrmDisplay::Init gets as far as HdiDisplay::Init. -/
def createDisplay (s : State) (init : Bool) : State :=
  if init then initDisplay s .new else { s with displays := .new :: s.displays }

/-- The layers are members of the display, mClientLayer the last of the two. -/
def Display.layers (display : Display) : List Layer :=
  display.mClientLayer.toList ++ display.mLayersMap.map .initialised

def destroyDisplay (s : State) (d : ℕ) : Option State :=
  s.displays[d]?.map fun display =>
    { s with
      displayIds := s.displayIds.erase display.mId
      displays := s.displays.eraseIdx d
      dying := display.layers }

inductive Event where
  | createDisplay (init : Bool)
  | destroyDisplay (d : ℕ)
  | destroyMember
  | createLayer (d : ℕ) (layerInfo layerId : Bool)
  | destroyLayer (d : ℕ) (layerId : UInt32)
  deriving DecidableEq, Repr

def next (s : State) (e : Event) : Option State :=
  if s.hung then none
  else
    match s.dying, e with
    | l :: dying, .destroyMember => some (destroyHdiLayer { s with dying } l)
    | [], .createDisplay init => some (createDisplay s init)
    | [], .destroyDisplay d => destroyDisplay s d
    | [], .createLayer d layerInfo layerId => createLayer s d layerInfo layerId
    | [], .destroyLayer d layerId => destroyLayer s d layerId
    | _, _ => none

def system : System State Event where
  Init s := s = initial
  next := next

theorem next_cases {s t : State} {e : Event} (ht : next s e = some t) :
    (∃ l dying, s.dying = l :: dying ∧ e = .destroyMember ∧
      t = destroyHdiLayer { s with dying } l) ∨
    (s.dying = [] ∧
      ((∃ init, e = .createDisplay init ∧ t = createDisplay s init) ∨
        (∃ d, e = .destroyDisplay d ∧ destroyDisplay s d = some t) ∨
        (∃ d layerInfo layerId, e = .createLayer d layerInfo layerId ∧
          createLayer s d layerInfo layerId = some t) ∨
        (∃ d layerId, e = .destroyLayer d layerId ∧ destroyLayer s d layerId = some t))) := by
  unfold next at ht
  split_ifs at ht
  cases hdying : s.dying with
  | nil =>
    refine Or.inr ⟨rfl, ?_⟩
    cases e with
    | createDisplay init =>
      simp only [hdying, Option.some.injEq] at ht
      exact Or.inl ⟨init, rfl, ht.symm⟩
    | destroyDisplay d =>
      simp only [hdying] at ht
      exact Or.inr (Or.inl ⟨d, rfl, ht⟩)
    | destroyMember => simp [hdying] at ht
    | createLayer d layerInfo layerId =>
      simp only [hdying] at ht
      exact Or.inr (Or.inr (Or.inl ⟨d, layerInfo, layerId, rfl, ht⟩))
    | destroyLayer d layerId =>
      simp only [hdying] at ht
      exact Or.inr (Or.inr (Or.inr ⟨d, layerId, rfl, ht⟩))
  | cons l dying =>
    cases e with
    | destroyMember =>
      simp only [hdying, Option.some.injEq] at ht
      exact Or.inl ⟨l, dying, rfl, rfl, ht.symm⟩
    | _ => simp [hdying] at ht

def IdSets.IdLeft (s : IdSets) : Prop :=
  (s.mIdSets.erase invalideLayerId).card < invalideLayerId.toNat

instance (s : IdSets) : Decidable s.IdLeft := inferInstanceAs (Decidable (_ < _))

theorem eq_invalid_of_toNat {id : UInt32} (h : ¬ id.toNat < 4294967295) :
    id = invalideLayerId := by
  have hlt := id.toNat_lt
  apply UInt32.toNat_inj.mp
  rw [HdiDisplay.toNat_invalid]
  omega

theorem IdSets.all_used {s : IdSets} (h : ¬ s.IdLeft) {id : UInt32} (hid : id ≠ invalideLayerId) :
    id ∈ s.mIdSets := by
  by_contra hfree
  have hlt : id.toNat < 4294967295 := by
    by_contra hge
    exact hid (eq_invalid_of_toNat hge)
  have hsub : s.mIdSets.erase invalideLayerId ⊆
      ((Finset.range 4294967295).erase id.toNat).image UInt32.ofNat := by
    intro i hi
    obtain ⟨hne, hmem⟩ := Finset.mem_erase.mp hi
    have hi' : i.toNat < 4294967295 := by
      by_contra hge
      exact hne (eq_invalid_of_toNat hge)
    refine Finset.mem_image.mpr ⟨i.toNat, ?_, UInt32.ofNat_toNat⟩
    refine Finset.mem_erase.mpr ⟨fun heq => ?_, Finset.mem_range.mpr hi'⟩
    obtain rfl := UInt32.toNat_inj.mp heq
    exact hfree hmem
  have hcard := (Finset.card_le_card hsub).trans Finset.card_image_le
  rw [Finset.card_erase_of_mem (Finset.mem_range.mpr hlt), Finset.card_range] at hcard
  apply h
  unfold IdSets.IdLeft
  rw [HdiDisplay.toNat_invalid]
  omega

theorem IdSets.getIdleId_finds {s : IdSets} (h : s.IdLeft) :
    ∃ id, s.getIdleId = some (id, ⟨id + 1, insert id s.mIdSets⟩) ∧ id ∉ s.mIdSets ∧
      id ≠ invalideLayerId := by
  obtain ⟨id, hget, hid, hvalid⟩ := HdiDisplay.getIdleId_finds
    (s := { HdiDisplay.empty with mIdleId := s.mIdleId, mIdSets := s.mIdSets }) h
  obtain ⟨⟨id', idle⟩, hloop, heq⟩ := Option.map_eq_some_iff.mp hget
  obtain rfl : id' = id := congrArg Prod.fst heq
  have hidle : idle + 1 = id' + 1 := congrArg (fun r => r.2.mIdleId) heq
  have hloop : idleLoop s.mIdSets s.mIdleId (2 ^ 32) (s.mIdleId % invalideLayerId) =
      some (id', idle) := hloop
  refine ⟨id', ?_, hid, hvalid⟩
  rw [IdSets.getIdleId, hloop, ← hidle]
  rfl

theorem ne_invalid_of_toNat {id : UInt32} (h : id.toNat < 4294967295) :
    id ≠ invalideLayerId := by
  rintro rfl
  rw [HdiDisplay.toNat_invalid] at h
  omega

theorem idleLoop_used {ids : Finset UInt32} {old idle : UInt32} (n : ℕ) (h : idle ∈ ids) :
    idleLoop ids old (n + 1) idle =
      if old = (idle + 1) % invalideLayerId then some (invalideLayerId, (idle + 1) % invalideLayerId)
      else idleLoop ids old n ((idle + 1) % invalideLayerId) := by
  rw [idleLoop, if_neg (not_not.mpr h)]

/-- With every valid id in use the loop comes back to a valid start, and gives up. -/
theorem idleLoop_full {ids : Finset UInt32} (h : ∀ id, id ≠ invalideLayerId → id ∈ ids)
    {old : UInt32} {k : ℕ} : ∀ {n : ℕ} {idle : UInt32}, k < n → idle.toNat < 4294967295 →
      (idle.toNat + (k + 1)) % 4294967295 = old.toNat →
      idleLoop ids old n idle = some (invalideLayerId, old) := by
  induction k with
  | zero =>
    intro n idle hn hidle hold
    obtain ⟨n, rfl⟩ : ∃ m, n = m + 1 := ⟨n - 1, by omega⟩
    have hback : old = (idle + 1) % invalideLayerId := by
      rw [← UInt32.toNat_inj, HdiDisplay.next_toNat hidle, hold]
    rw [idleLoop_used n (h idle (ne_invalid_of_toNat hidle)), if_pos hback, ← hback]
  | succ k ih =>
    intro n idle hn hidle hold
    obtain ⟨n, rfl⟩ : ∃ m, n = m + 1 := ⟨n - 1, by omega⟩
    have hnext := HdiDisplay.next_toNat hidle
    rw [idleLoop_used n (h idle (ne_invalid_of_toNat hidle))]
    split_ifs with hback
    · rw [← hback]
    · apply ih (by omega)
      · rw [hnext]
        exact Nat.mod_lt _ (by omega)
      · rw [hnext, Nat.mod_add_mod, ← hold]
        congr 1
        omega

theorem idleLoop_hangs {ids : Finset UInt32} (h : ∀ id, id ≠ invalideLayerId → id ∈ ids)
    (n : ℕ) : ∀ {idle : UInt32}, idle.toNat < 4294967295 →
      idleLoop ids invalideLayerId n idle = none := by
  induction n with
  | zero =>
    intro idle _
    rfl
  | succ n ih =>
    intro idle hidle
    have hnext : ((idle + 1) % invalideLayerId).toNat < 4294967295 := by
      rw [HdiDisplay.next_toNat hidle]
      exact Nat.mod_lt _ (by omega)
    rw [idleLoop_used n (h idle (ne_invalid_of_toNat hidle)),
      if_neg (ne_invalid_of_toNat hnext).symm]
    exact ih hnext

theorem start_toNat (idle : UInt32) :
    (idle % invalideLayerId).toNat = idle.toNat % 4294967295 := by
  rw [UInt32.toNat_mod, HdiDisplay.toNat_invalid]

theorem start_lt (idle : UInt32) : (idle % invalideLayerId).toNat < 4294967295 := by
  rw [start_toNat]
  exact Nat.mod_lt _ (by omega)

theorem IdSets.getIdleId_fails {s : IdSets} (h : ¬ s.IdLeft) (hidle : s.mIdleId ≠ invalideLayerId) :
    s.getIdleId = some (invalideLayerId, ⟨s.mIdleId + 1, insert invalideLayerId s.mIdSets⟩) := by
  have hlt : s.mIdleId.toNat < 4294967295 := by
    by_contra hge
    exact hidle (eq_invalid_of_toNat hge)
  have hloop : idleLoop s.mIdSets s.mIdleId (2 ^ 32) (s.mIdleId % invalideLayerId) =
      some (invalideLayerId, s.mIdleId) := by
    apply idleLoop_full (fun id => IdSets.all_used h) (k := 4294967294) (by omega) (start_lt _)
    rw [start_toNat]
    omega
  rw [IdSets.getIdleId, hloop, Option.map_some]

theorem IdSets.getIdleId_hangs {s : IdSets} (h : ¬ s.IdLeft) (hidle : s.mIdleId = invalideLayerId)
    (n : ℕ) : idleLoop s.mIdSets s.mIdleId n (s.mIdleId % invalideLayerId) = none := by
  rw [hidle]
  exact idleLoop_hangs (fun id => IdSets.all_used h) n (start_lt _)

theorem IdSets.getIdleId_none {s : IdSets} :
    s.getIdleId = none ↔ ¬ s.IdLeft ∧ s.mIdleId = invalideLayerId := by
  constructor
  · intro hnone
    by_cases hleft : s.IdLeft
    · obtain ⟨id, hget, -⟩ := IdSets.getIdleId_finds hleft
      rw [hnone] at hget
      cases hget
    · refine ⟨hleft, ?_⟩
      by_contra hidle
      rw [IdSets.getIdleId_fails hleft hidle] at hnone
      cases hnone
  · rintro ⟨hleft, hidle⟩
    rw [IdSets.getIdleId, IdSets.getIdleId_hangs hleft hidle, Option.map_none]

theorem IdSets.getIdleId_cases {s t : IdSets} {id : UInt32} (h : s.getIdleId = some (id, t)) :
    t.mIdSets = insert id s.mIdSets ∧
      (id ≠ invalideLayerId ∧ id ∉ s.mIdSets ∨ id = invalideLayerId ∧ ¬ s.IdLeft) := by
  by_cases hleft : s.IdLeft
  · obtain ⟨id', hget, hfree, hvalid⟩ := IdSets.getIdleId_finds hleft
    obtain ⟨rfl, rfl⟩ := Prod.mk.inj (Option.some.inj (hget.symm.trans h))
    exact ⟨rfl, Or.inl ⟨hvalid, hfree⟩⟩
  · by_cases hidle : s.mIdleId = invalideLayerId
    · rw [IdSets.getIdleId_none.mpr ⟨hleft, hidle⟩] at h
      cases h
    · rw [IdSets.getIdleId_fails hleft hidle] at h
      obtain ⟨rfl, rfl⟩ := Prod.mk.inj (Option.some.inj h)
      exact ⟨rfl, Or.inr ⟨rfl, hleft⟩⟩

end HdiIdSets
