import DeviceQemu.HdiIdSets

/-! Ids are unique among the living.
Each set of ids balances the ids of the living objects as long as no object without an id is
destroyed: such a layer has the field 0, and takes that id from the layer that has it. -/
namespace HdiIdSetsUnique

open StepSystem IdLedger HdiIdSets
open HdiDisplay (invalideLayerId)

def heldIds (layers : List Layer) : List UInt32 :=
  layers.filterMap fun
    | .created => none
    | .initialised id => some id

@[simp] theorem heldIds_nil : heldIds [] = [] := rfl

@[simp] theorem heldIds_created (ls : List Layer) : heldIds (.created :: ls) = heldIds ls := rfl

@[simp] theorem heldIds_initialised (id : UInt32) (ls : List Layer) :
    heldIds (.initialised id :: ls) = id :: heldIds ls := rfl

@[simp] theorem heldIds_append (ls ls' : List Layer) :
    heldIds (ls ++ ls') = heldIds ls ++ heldIds ls' := List.filterMap_append

@[simp] theorem heldIds_map (ids : List UInt32) : heldIds (ids.map .initialised) = ids := by
  induction ids with
  | nil => rfl
  | cons id ids ih => rw [List.map_cons, heldIds_initialised, ih]

/-- The layers that are alive, those of a display under destruction included. -/
def liveLayers (s : State) : List Layer := s.displays.flatMap Display.layers ++ s.dying

def layerIdsHeld (s : State) : List UInt32 := heldIds (liveLayers s)

def displayIdsHeld (s : State) : List UInt32 :=
  (s.displays.map Display.mId).filter (· ≠ invalideDisplayId)

/-- Every living object that Init gave an id has a valid one, recorded and its own. -/
structure Recorded (ids : IdSets) (held : List UInt32) : Prop where
  nodup : held.Nodup
  valid : ∀ id ∈ held, id ≠ invalideLayerId
  mem : ∀ id ∈ held, id ∈ ids.mIdSets

/-- `hung` is what a GetIdleId that does not end leads to. -/
structure Unique (s : State) : Prop where
  layers : Recorded s.layerIds (layerIdsHeld s)
  displays : Recorded s.displayIds (displayIdsHeld s)
  returns : s.hung = false

/-- The ids in use, without the invalid one that a failed GetIdleId records. -/
def validIds (ids : IdSets) : Finset UInt32 := ids.mIdSets.erase invalideLayerId

structure Inv (s : State) : Prop where
  layers : Balanced (validIds s.layerIds) (layerIdsHeld s)
  displays : Balanced (validIds s.displayIds) (displayIdsHeld s)
  returns : s.hung = false

theorem recorded_of_balanced {ids : IdSets} {held : List UInt32}
    (h : Balanced (validIds ids) held) : Recorded ids held := by
  refine ⟨h.nodup, fun id hid => ?_, fun id hid => ?_⟩
  · exact (Finset.mem_erase.mp ((h.mem id).mpr hid)).1
  · exact (Finset.mem_erase.mp ((h.mem id).mpr hid)).2

theorem Inv.unique {s : State} (h : Inv s) : Unique s :=
  ⟨recorded_of_balanced h.layers, recorded_of_balanced h.displays, h.returns⟩

theorem initial_inv : Inv initial := ⟨balanced_empty, balanced_empty, rfl⟩

theorem validIds_insert {ids : IdSets} {id idle : UInt32} (h : id ≠ invalideLayerId) :
    validIds ⟨idle, insert id ids.mIdSets⟩ = insert id (validIds ids) :=
  Finset.erase_insert_of_ne h

theorem validIds_insert_invalid {ids : IdSets} {idle : UInt32} :
    validIds ⟨idle, insert invalideLayerId ids.mIdSets⟩ = validIds ids :=
  Finset.erase_insert_eq_erase ..

theorem validIds_erase (ids : IdSets) (id : UInt32) :
    validIds (ids.erase id) = (validIds ids).erase id := Finset.erase_right_comm

theorem zero_ne_invalid : (0 : UInt32) ≠ invalideLayerId := by decide

theorem Recorded.not_stray {ids : IdSets} {held : List UInt32} (h : Balanced (validIds ids) held)
    (hzero : 0 ∈ ids.mIdSets) : ¬ Recorded (ids.erase 0) held := by
  intro hrec
  have hused : 0 ∈ validIds ids := Finset.mem_erase.mpr ⟨zero_ne_invalid, hzero⟩
  apply h.stray hused
  intro id hid
  have hmem := hrec.mem id hid
  rw [← validIds_erase]
  exact Finset.mem_erase.mpr ⟨hrec.valid id hid, hmem⟩

theorem exists_split {α : Type*} {xs : List α} {d : ℕ} {x : α} (h : xs[d]? = some x) :
    ∃ l r, xs = l ++ x :: r ∧ (∀ y, xs.set d y = l ++ y :: r) ∧ xs.eraseIdx d = l ++ r := by
  induction xs generalizing d with
  | nil => simp at h
  | cons z xs ih =>
    cases d with
    | zero =>
      obtain rfl : z = x := by simpa using h
      exact ⟨[], xs, rfl, fun _ => rfl, rfl⟩
    | succ d =>
      obtain ⟨l, r, hxs, hset, herase⟩ := ih (by simpa using h)
      refine ⟨z :: l, r, by rw [hxs, List.cons_append], fun y => ?_, ?_⟩
      · rw [List.set_cons_succ, hset, List.cons_append]
      · rw [List.eraseIdx_cons_succ, herase, List.cons_append]

theorem layerIdsHeld_perm {s : State} {l r : List Display} {display : Display}
    (h : s.displays = l ++ display :: r) :
    (layerIdsHeld s).Perm (heldIds display.layers ++
      heldIds ((l ++ r).flatMap Display.layers ++ s.dying)) := by
  simp only [layerIdsHeld, liveLayers, h, List.flatMap_append, List.flatMap_cons, heldIds_append,
    List.append_assoc]
  exact List.perm_append_comm_assoc ..

theorem displayIdsHeld_perm {s : State} {l r : List Display} {display : Display}
    (h : s.displays = l ++ display :: r) :
    (displayIdsHeld s).Perm
      (((display :: (l ++ r)).map Display.mId).filter (· ≠ invalideDisplayId)) := by
  rw [displayIdsHeld, h]
  exact (List.perm_middle.map _).filter _

theorem heldIds_layers (display : Display) :
    heldIds display.layers = heldIds display.mClientLayer.toList ++ display.mLayersMap := by
  rw [Display.layers, heldIds_append, heldIds_map]

/-- Replacing a display by one with the same id changes the ids that its layers hold. -/
theorem Inv.replace {s t : State} {d : ℕ} {display display' : Display} (h : Inv s)
    (hd : s.displays[d]? = some display) (hid : display'.mId = display.mId)
    (hdisplays : t.displays = s.displays.set d display') (hdying : t.dying = s.dying)
    (hids : t.displayIds = s.displayIds) (hhung : t.hung = s.hung)
    (hbal : ∀ rest, Balanced (validIds s.layerIds) (heldIds display.layers ++ rest) →
      Balanced (validIds t.layerIds) (heldIds display'.layers ++ rest)) : Inv t := by
  obtain ⟨l, r, hs, hset, -⟩ := exists_split hd
  rw [hset] at hdisplays
  refine ⟨?_, ?_, hhung.trans h.returns⟩
  · have ht := layerIdsHeld_perm hdisplays
    rw [hdying] at ht
    exact (hbal _ (h.layers.perm (layerIdsHeld_perm hs))).perm ht.symm
  · have ht := displayIdsHeld_perm hdisplays
    rw [List.map_cons, hid, ← List.map_cons] at ht
    rw [hids]
    exact (h.displays.perm (displayIdsHeld_perm hs)).perm ht.symm

def Safe (s : State) : Event → Prop
  | .createLayer _ layerInfo layerId =>
    layerInfo = true → layerId = true → s.layerIds.IdLeft
  | .createDisplay init =>
    init = true → s.displayIds.IdLeft ∨ s.displayIds.mIdleId ≠ invalideDisplayId
  | .destroyMember => s.dying.head? = some .created → 0 ∉ s.layerIds.mIdSets
  | .destroyDisplay _ | .destroyLayer _ _ => True

instance (s : State) : ∀ e, Decidable (Safe s e)
  | .createLayer _ _ _ => inferInstanceAs (Decidable (_ → _ → _))
  | .createDisplay _ => inferInstanceAs (Decidable (_ → _))
  | .destroyMember => inferInstanceAs (Decidable (_ → _))
  | .destroyDisplay _ | .destroyLayer _ _ => isTrue trivial

theorem createLayer_inv {s t : State} {d : ℕ} {layerInfo layerId : Bool} (h : Inv s)
    (hsafe : Safe s (.createLayer d layerInfo layerId))
    (ht : createLayer s d layerInfo layerId = some t) : Inv t := by
  obtain ⟨display, hd, ht⟩ := Option.map_eq_some_iff.mp ht
  cases layerInfo with
  | false => exact ht ▸ h
  | true =>
    cases layerId with
    | false => exact ht ▸ h
    | true =>
      obtain ⟨id, hget, hfree, hvalid⟩ := IdSets.getIdleId_finds (hsafe rfl rfl)
      have hused : id ∉ validIds s.layerIds := fun hmem => hfree (Finset.mem_erase.mp hmem).2
      have hmap : id ∉ display.mLayersMap := by
        obtain ⟨l, r, hs, -⟩ := exists_split hd
        intro hmem
        apply hused
        rw [h.layers.mem, (layerIdsHeld_perm hs).mem_iff, heldIds_layers]
        simp [hmem]
      simp only [Bool.not_true, Bool.false_eq_true, if_false, hget, if_neg hvalid, emplaceLayer,
        if_neg hmap] at ht
      subst ht
      refine h.replace hd ?_ rfl rfl rfl rfl fun rest hbal => ?_
      · rfl
      · rw [validIds_insert hvalid, heldIds_layers]
        refine (hbal.issue hused).perm ?_
        rw [heldIds_layers, List.append_assoc, List.append_assoc, List.cons_append]
        exact List.perm_middle.symm

theorem createLayer_breaks {s t : State} {d : ℕ} {layerInfo layerId : Bool} (h : Inv s)
    (hsafe : ¬ Safe s (.createLayer d layerInfo layerId))
    (ht : createLayer s d layerInfo layerId = some t) : ¬ Unique t := by
  simp only [Safe, Classical.not_imp] at hsafe
  obtain ⟨rfl, rfl, hleft⟩ := hsafe
  obtain ⟨display, hd, ht⟩ := Option.map_eq_some_iff.mp ht
  intro hunique
  by_cases hidle : s.layerIds.mIdleId = invalideLayerId
  · rw [IdSets.getIdleId_none.mpr ⟨hleft, hidle⟩] at ht
    subst ht
    cases hunique.returns
  · -- the layer whose Init failed takes id 0 with it
    rw [IdSets.getIdleId_fails hleft hidle] at ht
    subst ht
    have hzero : 0 ∈ s.layerIds.mIdSets := IdSets.all_used hleft zero_ne_invalid
    refine Recorded.not_stray ?_ (Finset.mem_insert_of_mem hzero) hunique.layers
    rw [validIds_insert_invalid]
    exact h.layers

theorem destroyLayer_inv {s t : State} {d : ℕ} {layerId : UInt32} (h : Inv s)
    (ht : destroyLayer s d layerId = some t) : Inv t := by
  obtain ⟨display, hd, ht⟩ := Option.map_eq_some_iff.mp ht
  by_cases hmem : layerId ∈ display.mLayersMap
  · simp only [hmem, not_true, if_false] at ht
    subst ht
    refine h.replace hd ?_ rfl rfl rfl rfl fun rest hbal => ?_
    · rfl
    · have hperm : (heldIds display.layers ++ rest).Perm (layerId ::
          (heldIds display.mClientLayer.toList ++ display.mLayersMap.erase layerId ++ rest)) := by
        rw [heldIds_layers]
        have hmap := ((List.perm_cons_erase hmem).append_left
          (heldIds display.mClientLayer.toList)).trans List.perm_middle
        exact hmap.append_right rest
      rw [heldIds_layers]
      exact (validIds_erase s.layerIds layerId).symm ▸ (hbal.perm hperm).giveBack
  · simp only [hmem, not_false_eq_true, if_true] at ht
    exact ht ▸ h

theorem Inv.cons {s : State} {display : Display} {displayIds : IdSets} (h : Inv s)
    (hlayers : heldIds display.layers = [])
    (hbal : Balanced (validIds displayIds)
      ([display.mId].filter (· ≠ invalideDisplayId) ++ displayIdsHeld s)) :
    Inv { s with displayIds, displays := display :: s.displays } := by
  refine ⟨?_, ?_, h.returns⟩
  · have hheld : layerIdsHeld { s with displayIds, displays := display :: s.displays } =
        layerIdsHeld s := by
      simp only [layerIdsHeld, liveLayers, List.flatMap_cons, heldIds_append, hlayers,
        List.nil_append]
    rw [hheld]
    exact h.layers
  · rwa [displayIdsHeld, ← List.filter_append] at hbal

theorem createDisplay_inv {s : State} {init : Bool} (h : Inv s)
    (hsafe : Safe s (.createDisplay init)) : Inv (createDisplay s init) := by
  cases init with
  | false => exact h.cons rfl h.displays
  | true =>
    by_cases hleft : s.displayIds.IdLeft
    · obtain ⟨id, hget, hfree, hvalid⟩ := IdSets.getIdleId_finds hleft
      have hused : id ∉ validIds s.displayIds := fun hmem => hfree (Finset.mem_erase.mp hmem).2
      simp only [createDisplay, if_true, initDisplay, hget]
      rw [if_neg (show id ≠ invalideDisplayId from hvalid)]
      refine h.cons rfl ?_
      rw [validIds_insert hvalid, List.filter_singleton,
        decide_eq_true (show id ≠ invalideDisplayId from hvalid)]
      exact h.displays.issue hused
    · have hidle := (hsafe rfl).resolve_left hleft
      simp only [createDisplay, if_true, initDisplay, IdSets.getIdleId_fails hleft hidle]
      rw [if_pos (show invalideLayerId = invalideDisplayId from rfl)]
      refine h.cons rfl ?_
      rw [validIds_insert_invalid]
      exact h.displays

theorem createDisplay_breaks {s : State} {init : Bool} (hsafe : ¬ Safe s (.createDisplay init)) :
    ¬ Unique (createDisplay s init) := by
  simp only [Safe, Classical.not_imp, not_or, not_not] at hsafe
  obtain ⟨rfl, hleft, hidle⟩ := hsafe
  intro hunique
  simp only [createDisplay, if_true, initDisplay, IdSets.getIdleId_none.mpr ⟨hleft, hidle⟩] at hunique
  cases hunique.returns

theorem destroyDisplay_inv {s t : State} {d : ℕ} (h : Inv s) (hdying : s.dying = [])
    (ht : destroyDisplay s d = some t) : Inv t := by
  obtain ⟨display, hd, rfl⟩ := Option.map_eq_some_iff.mp ht
  obtain ⟨l, r, hs, -, herase⟩ := exists_split hd
  refine ⟨?_, ?_, h.returns⟩
  · refine h.layers.perm ((layerIdsHeld_perm hs).trans ?_)
    simp only [layerIdsHeld, liveLayers, herase, hdying, List.append_nil, heldIds_append]
    exact List.perm_append_comm
  · have hbal := h.displays.perm (displayIdsHeld_perm hs)
    rw [List.map_cons, List.filter_cons] at hbal
    rw [displayIdsHeld, herase, validIds_erase]
    split_ifs at hbal with hvalid
    · exact hbal.giveBack
    · -- a display that has no id erases the invalid one
      have hid : display.mId = invalideDisplayId := by simpa using hvalid
      have hnot : display.mId ∉ validIds s.displayIds := hid ▸ Finset.notMem_erase _ _
      rwa [Finset.erase_eq_of_notMem hnot]

theorem destroyMember_inv {s : State} {l : Layer} {dying : List Layer} (h : Inv s)
    (hdying : s.dying = l :: dying) (hsafe : Safe s .destroyMember) :
    Inv (destroyHdiLayer { s with dying } l) := by
  refine ⟨?_, h.displays, h.returns⟩
  have hs := h.layers
  rw [layerIdsHeld, liveLayers, hdying, heldIds_append] at hs
  rw [layerIdsHeld, liveLayers, heldIds_append]
  cases l with
  | created =>
    have hzero : 0 ∉ s.layerIds.mIdSets := hsafe (by rw [hdying, List.head?_cons])
    have herase : (validIds s.layerIds).erase 0 = validIds s.layerIds :=
      Finset.erase_eq_of_notMem fun hmem => hzero (Finset.mem_erase.mp hmem).2
    rw [destroyHdiLayer, validIds_erase]
    exact herase.symm ▸ hs
  | initialised id =>
    rw [destroyHdiLayer, validIds_erase]
    exact (hs.perm List.perm_middle).giveBack

theorem destroyMember_breaks {s : State} {l : Layer} {dying : List Layer} (h : Inv s)
    (hdying : s.dying = l :: dying) (hsafe : ¬ Safe s .destroyMember) :
    ¬ Unique (destroyHdiLayer { s with dying } l) := by
  simp only [Safe, hdying, List.head?_cons, Option.some.injEq, Classical.not_imp, not_not] at hsafe
  obtain ⟨rfl, hzero⟩ := hsafe
  intro hunique
  refine Recorded.not_stray ?_ hzero hunique.layers
  have hs := h.layers
  rw [layerIdsHeld, liveLayers, hdying, heldIds_append, heldIds_created] at hs
  rw [layerIdsHeld, liveLayers, heldIds_append]
  exact hs

theorem next_inv {s t : State} {e : Event} (h : Inv s) (hsafe : Safe s e)
    (ht : next s e = some t) : Inv t := by
  rcases next_cases ht with ⟨l, dying, hdying, rfl, rfl⟩ | ⟨hdying, ⟨init, rfl, rfl⟩ | ⟨d, rfl, hc⟩ |
    ⟨d, layerInfo, layerId, rfl, hc⟩ | ⟨d, layerId, rfl, hc⟩⟩
  · exact destroyMember_inv h hdying hsafe
  · exact createDisplay_inv h hsafe
  · exact destroyDisplay_inv h hdying hc
  · exact createLayer_inv h hsafe hc
  · exact destroyLayer_inv h hc

theorem next_breaks {s t : State} {e : Event} (h : Inv s) (hsafe : ¬ Safe s e)
    (ht : next s e = some t) : ¬ Unique t := by
  rcases next_cases ht with ⟨l, dying, hdying, rfl, rfl⟩ | ⟨hdying, ⟨init, rfl, rfl⟩ | ⟨d, rfl, hc⟩ |
    ⟨d, layerInfo, layerId, rfl, hc⟩ | ⟨d, layerId, rfl, hc⟩⟩
  · exact destroyMember_breaks h hdying hsafe
  · exact createDisplay_breaks hsafe
  · exact absurd trivial hsafe
  · exact createLayer_breaks h hsafe hc
  · exact absurd trivial hsafe

def Released (ids ids' : IdSets) (held held' : List UInt32) : Prop :=
  ∀ id ∈ ids.mIdSets, id ≠ invalideLayerId → id ∉ ids'.mIdSets → id ∈ held ∧ id ∉ held'

theorem released_of_balanced {ids ids' : IdSets} {held held' : List UInt32}
    (h : Balanced (validIds ids) held) (h' : Balanced (validIds ids') held') :
    Released ids ids' held held' := by
  intro id hmem hvalid hgone
  constructor
  · exact (h.mem id).mp (Finset.mem_erase.mpr ⟨hvalid, hmem⟩)
  · exact fun hheld => hgone (Finset.mem_erase.mp ((h'.mem id).mpr hheld)).2

def ReleasesOwn (s : State) (e : Event) : Prop :=
  ∀ t, next s e = some t →
    Released s.layerIds t.layerIds (layerIdsHeld s) (layerIdsHeld t) ∧
      Released s.displayIds t.displayIds (displayIdsHeld s) (displayIdsHeld t)

theorem next_releasesOwn {s : State} {e : Event} (h : Inv s) (hsafe : Safe s e) :
    ReleasesOwn s e := by
  intro t ht
  have h' := next_inv h hsafe ht
  exact ⟨released_of_balanced h.layers h'.layers, released_of_balanced h.displays h'.displays⟩

/-- A call of GetIdleId that returns the invalid id had no other to return. -/
def InvalidWhenFull (ids : IdSets) : Prop :=
  ∀ t id, ids.getIdleId = some (id, t) → id = invalideLayerId →
    ∀ id', id' ≠ invalideLayerId → id' ∈ ids.mIdSets

theorem ids_unique_iff (es : List Event) :
    (StatesMeet system Unique initial es ∧ StepsMeet system ReleasesOwn initial es ↔
      StepsMeet system Safe initial es) ∧ ∀ ids, InvalidWhenFull ids := by
  have hstep : ∀ s e t, Inv s → Safe s e → system.next s e = some t → Inv t :=
    fun s e t => next_inv
  refine ⟨⟨fun h => ?_, fun hsafe => ⟨?_, ?_⟩⟩, fun ids t id hget hid => ?_⟩
  · refine stepsMeet_of_statesMeet hstep ?_ initial_inv (stepsMeet_true system initial es) h.1
    exact fun s e t hI _ hc ht => next_breaks hI hc ht
  · exact statesMeet_of_stepsMeet (fun _ hI => hI.unique) hstep initial_inv hsafe
  · exact StepsMeet.imp hstep (fun s e => next_releasesOwn) initial_inv hsafe
  · rcases (IdSets.getIdleId_cases hget).2 with ⟨hvalid, -⟩ | ⟨-, hleft⟩
    · exact absurd hid hvalid
    · exact fun id' => IdSets.all_used hleft

def twoDisplays : List Event :=
  [.createDisplay true, .createDisplay true, .createLayer 0 true true, .destroyDisplay 1,
    .destroyMember]

theorem ids_not_recorded : ¬ ∀ s, Reachable system s → Unique s := by
  intro h
  have hrun : (system.run initial twoDisplays).map
      (fun s => decide (layerIdsHeld s = [0]) && decide (0 ∉ s.layerIds.mIdSets)) = some true := by
    decide +kernel
  rcases exists_reachable rfl hrun with ⟨s, hs, hp⟩
  simp only [Bool.and_eq_true, decide_eq_true_eq] at hp
  exact hp.2 ((h s hs).layers.mem 0 (by simp [hp.1]))

end HdiIdSetsUnique
