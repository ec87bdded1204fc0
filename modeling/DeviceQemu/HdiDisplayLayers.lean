import DeviceQemu.HdiDisplay

/-! The layer map against the layer order.
mLayersMap and mLayers are updated separately, one by id and the other by z. They agree as
long as DestroyLayer, which erases by z, meets no second layer at the same z. -/
namespace HdiDisplayLayers

open StepSystem OrderedMultiset HdiDisplay

/-- mLayers holds the layers of mLayersMap, each once, by non-decreasing z. -/
structure Agrees (s : State) : Prop where
  nodup : s.mLayers.Nodup
  mem : ∀ p, p ∈ s.mLayers ↔ ∃ id, s.mLayersMap id = some p
  sorted : Sorted (zorder s.heap) s.mLayers

structure Inv (s : State) : Prop where
  agrees : Agrees s
  ids : ∀ id p, s.mLayersMap id = some p → (s.heap p).mId = id
  held : ∀ id p, s.mLayersMap id = some p → id ∈ s.mIdSets
  fresh : ∀ id p, s.mLayersMap id = some p → p < s.fresh

theorem init_inv {s : State} (h : Init s) : Inv s := by
  constructor
  · constructor
    · simp [h.mLayers]
    · simp [h.mLayers, h.mLayersMap]
    · simp [h.mLayers, Sorted]
  all_goals
    intro id p hp
    simp [h.mLayersMap] at hp

theorem Inv.inj {s : State} (h : Inv s) {id id' : UInt32} {p : Ptr}
    (hp : s.mLayersMap id = some p) (hp' : s.mLayersMap id' = some p) : id = id' := by
  rw [← h.ids id p hp, ← h.ids id' p hp']

theorem zorder_update {heap : Ptr → HdiLayer} {p q : Ptr} (l : HdiLayer) (h : q ≠ p) :
    zorder (Function.update heap p l) q = zorder heap q := by
  rw [zorder, Function.update_of_ne h, zorder]

theorem addedLayer_inv {s : State} {id : UInt32} (h : Inv s) (hid : id ∉ s.mIdSets)
    (hnone : s.mLayersMap id = none) : Inv (addedLayer s id) := by
  have hnew : s.fresh ∉ s.mLayers := by
    intro hmem
    obtain ⟨id', hid'⟩ := (h.agrees.mem _).mp hmem
    exact lt_irrefl _ (h.fresh id' _ hid')
  have hold : ∀ p, p ∈ s.mLayers → p ≠ s.fresh := fun p hp heq => hnew (heq ▸ hp)
  constructor
  · constructor
    · exact (insert_perm _ _).nodup_iff.mpr (List.nodup_cons.mpr ⟨hnew, h.agrees.nodup⟩)
    · intro p
      simp only [addedLayer_map hnone]
      refine mem_insert.trans ?_
      rw [h.agrees.mem]
      constructor
      · rintro (rfl | ⟨id', hid'⟩)
        · exact ⟨id, Or.inl ⟨rfl, rfl⟩⟩
        · exact ⟨id', Or.inr hid'⟩
      · rintro ⟨id', ⟨-, rfl⟩ | hid'⟩
        · exact Or.inl rfl
        · exact Or.inr ⟨id', hid'⟩
    · apply insert_sorted (less_comparesBy _)
      exact h.agrees.sorted.congr fun p hp => zorder_update _ (hold p hp)
  · intro id' p hp
    rcases (addedLayer_map hnone id' p).mp hp with ⟨rfl, rfl⟩ | hp
    · simp [addedLayer]
    · have hne : p ≠ s.fresh := (h.fresh id' p hp).ne
      simpa [addedLayer, Function.update_of_ne hne] using h.ids id' p hp
  · intro id' p hp
    rcases (addedLayer_map hnone id' p).mp hp with ⟨rfl, rfl⟩ | hp
    · exact Finset.mem_insert_self ..
    · exact Finset.mem_insert_of_mem (h.held id' p hp)
  · intro id' p hp
    rcases (addedLayer_map hnone id' p).mp hp with ⟨rfl, rfl⟩ | hp
    · exact Nat.lt_succ_self _
    · exact Nat.lt_succ_of_lt (h.fresh id' p hp)

theorem createLayer_inv {s t : State} {layerInfo layerId : Bool} (h : Inv s) (hc : IdLeft s)
    (ht : next s (.createLayer layerInfo layerId) = some t) : Inv t := by
  obtain ⟨r, hr, rfl⟩ := Option.map_eq_some_iff.mp ht
  rcases createLayer_cases hc h.held hr with heq | ⟨id, hid, hnone, heq⟩
  · exact heq ▸ h
  · exact heq ▸ addedLayer_inv h hid hnone

/-- DestroyLayer meets no second layer at the z of the named one. -/
def ErasesOne (s : State) : Event → Prop
  | .destroyLayer id => ∀ p ∈ s.mLayersMap id, ∀ q ∈ s.mLayers,
    (s.heap q).mZorder = (s.heap p).mZorder → q = p
  | _ => True

instance (s : State) : ∀ e, Decidable (ErasesOne s e)
  | .destroyLayer id => inferInstanceAs (Decidable (∀ p ∈ s.mLayersMap id, ∀ q ∈ s.mLayers, _))
  | .createLayer _ _ | .setLayerZorder _ _ => isTrue trivial

/-- An operation on the layer `id` leaves every other layer where and as it is. -/
structure OnlyNamed (s t : State) (id : UInt32) : Prop where
  unknown : s.mLayersMap id = none → t = s
  others : ∀ p, s.mLayersMap id = some p →
    (t.mLayers.filter fun q => decide (q ≠ p)) = s.mLayers.filter fun q => decide (q ≠ p)
  heap : ∀ p, s.mLayersMap id = some p → ∀ q, q ≠ p → t.heap q = s.heap q
  map : ∀ id', id' ≠ id → t.mLayersMap id' = s.mLayersMap id'

theorem onlyNamed_refl (s : State) (id : UInt32) : OnlyNamed s s id :=
  ⟨fun _ => rfl, fun _ _ => rfl, fun _ _ _ _ => rfl, fun _ _ => rfl⟩

theorem destroyLayer_erases {s : State} {id : UInt32} {p : Ptr} (hp : s.mLayersMap id = some p)
    (hc : ErasesOne s (.destroyLayer id)) :
    (destroyLayer s id).2.mLayers = s.mLayers.filter fun q => decide (q ≠ p) := by
  simp only [destroyLayer, hp, destroyHdiLayer]
  apply eraseKey_eq_filter (less_comparesBy s.heap)
  intro q hq hz
  exact hc p hp q hq (UInt32.toNat_inj.mp hz)

theorem destroyLayer_inv {s : State} {id : UInt32} (h : Inv s)
    (hc : ErasesOne s (.destroyLayer id)) :
    Inv (destroyLayer s id).2 ∧ OnlyNamed s (destroyLayer s id).2 id := by
  cases hp : s.mLayersMap id with
  | none =>
    simp only [destroyLayer, hp]
    exact ⟨h, onlyNamed_refl s id⟩
  | some p =>
    have hlayers := destroyLayer_erases hp hc
    have hmap : ∀ id', id' ≠ id → (destroyLayer s id).2.mLayersMap id' = s.mLayersMap id' := by
      intro id' hne
      simp [destroyLayer, hp, destroyHdiLayer, hne]
    have hgone : (destroyLayer s id).2.mLayersMap id = none := by
      simp [destroyLayer, hp, destroyHdiLayer]
    have hheap : (destroyLayer s id).2.heap = s.heap := by simp [destroyLayer, hp, destroyHdiLayer]
    have hkeep : ∀ id' q, (destroyLayer s id).2.mLayersMap id' = some q →
        id' ≠ id ∧ s.mLayersMap id' = some q := by
      intro id' q hq
      by_cases hne : id' = id
      · rw [hne, hgone] at hq
        simp at hq
      · exact ⟨hne, hmap id' hne ▸ hq⟩
    refine ⟨⟨⟨?_, ?_, ?_⟩, ?_, ?_, ?_⟩, ?_, ?_, ?_, hmap⟩
    · rw [hlayers]
      exact h.agrees.nodup.filter _
    · intro q
      rw [hlayers]
      simp only [List.mem_filter, h.agrees.mem, decide_eq_true_eq]
      constructor
      · rintro ⟨⟨id', hq⟩, hne⟩
        have hid : id' ≠ id := by
          rintro rfl
          exact hne (Option.some.inj (hq.symm.trans hp))
        exact ⟨id', (hmap id' hid).trans hq⟩
      · rintro ⟨id', hq⟩
        obtain ⟨hid, hq⟩ := hkeep id' q hq
        refine ⟨⟨id', hq⟩, ?_⟩
        rintro rfl
        exact hid (h.inj hq hp)
    · rw [hlayers, hheap]
      exact List.Pairwise.filter _ h.agrees.sorted
    · intro id' q hq
      rw [hheap]
      exact h.ids id' q (hkeep id' q hq).2
    · intro id' q hq
      obtain ⟨hid, hq⟩ := hkeep id' q hq
      simp only [destroyLayer, hp, destroyHdiLayer, h.ids id p hp]
      exact Finset.mem_erase.mpr ⟨hid, h.held id' q hq⟩
    · intro id' q hq
      simp only [destroyLayer, hp, destroyHdiLayer]
      exact h.fresh id' q (hkeep id' q hq).2
    · intro hnone
      simp [hp] at hnone
    · intro q hq
      obtain rfl := Option.some.inj (hp.symm.trans hq)
      rw [hlayers]
      simp
    · intro q _ r _
      rw [hheap]

theorem setLayerZorder_inv {s : State} {id z : UInt32} (h : Inv s) :
    Inv (setLayerZorder s id z).2 ∧ OnlyNamed s (setLayerZorder s id z).2 id := by
  cases hp : s.mLayersMap id with
  | none =>
    simp only [setLayerZorder, hp]
    exact ⟨h, onlyNamed_refl s id⟩
  | some p =>
    by_cases hz : (s.heap p).mZorder = z
    · simp only [setLayerZorder, hp, hz, if_true]
      exact ⟨h, onlyNamed_refl s id⟩
    · have hmem : p ∈ s.mLayers := (h.agrees.mem p).mpr ⟨id, hp⟩
      have herase := eraseElement_eq (less_comparesBy s.heap) p s.mLayers
      have hother : ∀ q, q ∈ s.mLayers.erase p → q ≠ p := fun q hq =>
        (h.agrees.nodup.mem_erase_iff.mp hq).1
      simp only [setLayerZorder, hp, if_neg hz, herase]
      refine ⟨⟨⟨?_, ?_, ?_⟩, ?_, h.held, h.fresh⟩, ?_, ?_, ?_, fun _ _ => rfl⟩
      · rw [(insert_perm _ _).nodup_iff]
        exact (List.perm_cons_erase hmem).nodup_iff.mp h.agrees.nodup
      · intro q
        rw [(insert_perm _ _).mem_iff, ← (List.perm_cons_erase hmem).mem_iff]
        exact h.agrees.mem q
      · apply insert_sorted (less_comparesBy _)
        refine Sorted.congr (List.Pairwise.sublist List.erase_sublist h.agrees.sorted) ?_
        exact fun q hq => zorder_update _ (hother q hq)
      · intro id' q hq
        by_cases hqp : q = p
        · subst hqp
          simpa using h.ids id' q hq
        · simpa [Function.update_of_ne hqp] using h.ids id' q hq
      · intro hnone
        simp [hp] at hnone
      · intro q hq
        obtain rfl := Option.some.inj (hp.symm.trans hq)
        rw [filter_insert (by simp), ← List.erase_filter, List.erase_of_not_mem (by simp)]
      · intro q hq r hr
        obtain rfl := Option.some.inj (hp.symm.trans hq)
        exact Function.update_of_ne hr _ _

/-- CreateLayer runs while an id is left. -/
def FindsId (s : State) : Event → Prop
  | .createLayer _ _ => IdLeft s
  | _ => True

instance (s : State) : ∀ e, Decidable (FindsId s e)
  | .createLayer _ _ => inferInstanceAs (Decidable (IdLeft s))
  | .destroyLayer _ | .setLayerZorder _ _ => isTrue trivial

def Safe (s : State) (e : Event) : Prop := FindsId s e ∧ ErasesOne s e

instance (s : State) (e : Event) : Decidable (Safe s e) := inferInstanceAs (Decidable (_ ∧ _))

def named : Event → Option UInt32
  | .createLayer _ _ => none
  | .destroyLayer id | .setLayerZorder id _ => some id

def ActsOnNamed (s : State) (e : Event) : Prop :=
  ∀ t id, system.next s e = some t → named e = some id → OnlyNamed s t id

theorem next_inv {s t : State} {e : Event} (h : Inv s) (hc : Safe s e)
    (ht : system.next s e = some t) : Inv t := by
  cases e with
  | createLayer layerInfo layerId => exact createLayer_inv h hc.1 ht
  | destroyLayer id =>
    obtain rfl := Option.some.inj ht
    exact (destroyLayer_inv h hc.2).1
  | setLayerZorder id z =>
    obtain rfl := Option.some.inj ht
    exact (setLayerZorder_inv h).1

theorem next_named {s : State} {e : Event} (h : Inv s) (hc : Safe s e) : ActsOnNamed s e := by
  intro t id ht hid
  cases e with
  | createLayer => simp [named] at hid
  | destroyLayer id' =>
    obtain rfl := Option.some.inj hid
    obtain rfl := Option.some.inj ht
    exact (destroyLayer_inv h hc.2).2
  | setLayerZorder id' z =>
    obtain rfl := Option.some.inj hid
    obtain rfl := Option.some.inj ht
    exact (setLayerZorder_inv h).2

theorem destroyLayer_disagrees {s : State} {id : UInt32} (h : Inv s)
    (hc : ¬ ErasesOne s (.destroyLayer id)) : ¬ Agrees (destroyLayer s id).2 := by
  intro hagree
  simp only [ErasesOne, not_forall] at hc
  rcases hc with ⟨p, hp, q, hq, hz, hne⟩
  have hp : s.mLayersMap id = some p := hp
  obtain ⟨id', hid'⟩ := (h.agrees.mem q).mp hq
  have hid : id' ≠ id := by
    rintro rfl
    exact hne (Option.some.inj (hid'.symm.trans hp))
  have hmap : (destroyLayer s id).2.mLayersMap id' = some q := by
    simpa [destroyLayer, hp, destroyHdiLayer, hid] using hid'
  have hmem := (hagree.mem q).mpr ⟨id', hmap⟩
  simp only [destroyLayer, hp, destroyHdiLayer, mem_eraseKey (less_comparesBy s.heap)] at hmem
  exact hmem.2 (congrArg UInt32.toNat hz).symm

theorem layers_agree_iff {s : State} (h : Init s) (es : List Event) :
    (StepsMeet system Safe s es →
        StatesMeet system Agrees s es ∧ StepsMeet system ActsOnNamed s es) ∧
      (StepsMeet system FindsId s es → StatesMeet system Agrees s es →
        StepsMeet system Safe s es) := by
  have hstep : ∀ s e t, Inv s → Safe s e → system.next s e = some t → Inv t :=
    fun s e t => next_inv
  refine ⟨fun hsafe => ⟨?_, ?_⟩, stepsMeet_of_statesMeet hstep ?_ (init_inv h)⟩
  · exact statesMeet_of_stepsMeet (fun _ hI => hI.agrees) hstep (init_inv h) hsafe
  · exact StepsMeet.imp hstep (fun s e => next_named) (init_inv h) hsafe
  · intro s e t hI hfind hc ht
    cases e with
    | createLayer => exact absurd ⟨hfind, trivial⟩ hc
    | destroyLayer id =>
      obtain rfl := Option.some.inj ht
      exact destroyLayer_disagrees hI fun hone => hc ⟨hfind, hone⟩
    | setLayerZorder => exact absurd ⟨hfind, trivial⟩ hc

def equalZ : List Event := [.createLayer true true, .createLayer true true, .destroyLayer 0]

theorem layers_disagree : ¬ ∀ s, Reachable system s → Agrees s := by
  intro h
  have hrun : (system.run empty equalZ).map
      (fun s => decide (s.mLayers = []) && decide (s.mLayersMap 1 = some 1)) = some true := by
    decide +kernel
  rcases exists_reachable init_empty hrun with ⟨s, hs, hp⟩
  simp only [Bool.and_eq_true, decide_eq_true_eq] at hp
  have hmem := ((h s hs).mem 1).mpr ⟨1, hp.2⟩
  simp [hp.1] at hmem

def distinctZ : List Event :=
  [.createLayer true true, .createLayer true true, .setLayerZorder 1 5, .destroyLayer 0]

theorem layers_agree_iff_distinctZ :
    StatesMeet system Agrees empty distinctZ ∧ StepsMeet system ActsOnNamed empty distinctZ :=
  (layers_agree_iff init_empty distinctZ).1 (by decide +kernel)

end HdiDisplayLayers
