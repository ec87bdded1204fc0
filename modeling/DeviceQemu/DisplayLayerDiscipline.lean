import DeviceQemu.DisplayLayer

/-! Resource discipline of the display layer. -/
namespace DisplayLayer

open ResourceLedger StepSystem

variable {σ ω : Type}

theorem checkCreate_cases (priv : σ) (devId : ℕ) (layerInfo : Option Int32) (layerId : Bool)
    (body : Int32 → Effect σ) :
    (∃ ret, ret ≠ .success ∧ checkCreate priv devId layerInfo layerId body = ⟨ret, priv, []⟩ ∧
      ¬ (layerInfo ≠ none ∧ layerId = true ∧ devId = devID)) ∨
    ∃ width, (layerInfo ≠ none ∧ layerId = true ∧ devId = devID) ∧
      checkCreate priv devId layerInfo layerId body = body width := by
  unfold checkCreate
  split
  case h_1 width =>
    by_cases hdev : devId = devID
    · exact Or.inr ⟨width, ⟨Option.some_ne_none width, rfl, hdev⟩, by rw [if_neg (not_not.mpr hdev)]⟩
    · exact Or.inl ⟨.failure, by decide, by rw [if_pos hdev], fun h => hdev h.2.2⟩
  case h_2 hnot =>
    refine Or.inl ⟨.nullPtr, by decide, rfl, ?_⟩
    rintro ⟨hinfo, rfl, -⟩
    obtain ⟨width, rfl⟩ := Option.ne_none_iff_exists'.mp hinfo
    exact hnot width rfl rfl

theorem checkIds_cases (priv : σ) (devId layerId : ℕ) (body : Effect σ) :
    (∃ ret, ret ≠ .success ∧ checkIds priv devId layerId body = ⟨ret, priv, []⟩ ∧
      ¬ (devId = devID ∧ layerId = layerID)) ∨
    (devId = devID ∧ layerId = layerID) ∧ checkIds priv devId layerId body = body := by
  unfold checkIds
  by_cases hids : devId = devID ∧ layerId = layerID
  · exact Or.inr ⟨hids, if_neg (by tauto)⟩
  · exact Or.inl ⟨.failure, by decide, if_pos (by tauto), hids⟩

theorem next_of_inert {b : Board σ ω} {s : State σ} {e : Event ω} {ret : DispErrCode}
    (hret : ret ≠ .success) (he : b.effect s e = ⟨ret, s.priv, []⟩) : b.next s e = s := by
  have hhanded : handedAfter s e ret = s.handed := by
    unfold handedAfter
    split
    · exact absurd rfl hret
    · rfl
  have hbefore : beforeAfter s e ret = s.before := by
    unfold beforeAfter
    split
    · exact absurd rfl hret
    · exact absurd rfl hret
    · rfl
  simp only [Board.next, he, hhanded, hbefore, after]

theorem disciplined_of_inert {b : Board σ ω} {s : State σ} {e : Event ω} {ret : DispErrCode}
    (hlive : s.live = b.held s.priv) (hret : ret ≠ .success) (he : b.effect s e = ⟨ret, s.priv, []⟩) :
    Disciplined b s e := by
  constructor
  · rw [he]
    trivial
  · intro r _
    rw [he]
    exact List.not_mem_nil
  · rw [he]
    exact hlive
  · rintro _ _ - hs
    rw [he] at hs
    exact absurd hs hret

/-- What holds of a granted call: it is disciplined exactly when it is as `Safe` says, and then keeps
the invariant. -/
structure Spec (b : Board σ ω) (Inv : State σ → Prop) (Safe : State σ → Event ω → Prop) (s : State σ)
    (e : Event ω) : Prop where
  iff : Disciplined b s e ↔ Safe s e
  inv : Safe s e → Inv (b.next s e)

theorem spec_of_inert {b : Board σ ω} {Inv : State σ → Prop} {Safe : State σ → Event ω → Prop}
    {s : State σ} {e : Event ω} (hI : Inv s) (hlive : s.live = b.held s.priv) {ret : DispErrCode}
    (hret : ret ≠ .success) (he : b.effect s e = ⟨ret, s.priv, []⟩) (hsafe : Safe s e) :
    Spec b Inv Safe s e := by
  refine ⟨iff_of_true (disciplined_of_inert hlive hret he) hsafe, fun _ => ?_⟩
  rw [next_of_inert hret he]
  exact hI

@[simp] theorem heldIf_pos {p : Prop} [Decidable p] (h : p) (r : Resource) : heldIf p r = {r} :=
  if_pos h

@[simp] theorem heldIf_neg {p : Prop} [Decidable p] (h : ¬ p) (r : Resource) : heldIf p r = 0 :=
  if_neg h

theorem mem_heldIf {p : Prop} [Decidable p] {r x : Resource} : x ∈ heldIf p r ↔ p ∧ x = r := by
  by_cases h : p <;> simp [h]

theorem flushTo_uses {lent : Finset Resource} {live : Multiset Resource} (priv : σ)
    {frame : Addr → Resource} {fbAddr : Addr} (fbSize : UInt32) {handed : List Addr}
    (hframe : fbAddr ≠ 0 → frame fbAddr ∈ live ∨ frame fbAddr ∈ lent)
    (hhanded : ∀ a ∈ handed, .block a ∈ live) (buffer : Option Addr) :
    ∃ ret ops, flushTo priv frame fbAddr fbSize handed buffer = ⟨ret, priv, ops⟩ ∧
      Sound lent live ops ∧ after live ops = live ∧ ∀ r, .release r ∉ ops := by
  unfold flushTo
  split
  · exact ⟨_, _, rfl, trivial, rfl, fun _ => List.not_mem_nil⟩
  · split
    case isFalse => exact ⟨_, _, rfl, trivial, rfl, fun _ => List.not_mem_nil⟩
    case isTrue hwrites =>
      refine ⟨_, _, rfl, ?_⟩
      split
      case isTrue hmem =>
        have hblock := hhanded _ hmem
        simp [Sound, Op.Sound, after, Op.after, hframe hwrites.1, hblock]
      case isFalse => simp [Sound, Op.Sound, after, Op.after, hframe hwrites.1]

theorem flush_spec {b : Board σ ω} {s : State σ} {devId layerId : ℕ} {buffer : Option Addr}
    {frame : Addr → Resource} {fbAddr : Addr} {fbSize : UInt32} (hlive : s.live = b.held s.priv)
    (he : b.effect s (.flush devId layerId buffer)
      = checkIds s.priv devId layerId (flushTo s.priv frame fbAddr fbSize s.handed buffer))
    (hframe : fbAddr ≠ 0 → frame fbAddr ∈ s.live ∨ frame fbAddr ∈ b.lent)
    (hhanded : ∀ a ∈ s.handed, .block a ∈ s.live) :
    Disciplined b s (.flush devId layerId buffer) ∧ b.next s (.flush devId layerId buffer) = s := by
  obtain ⟨ret, hret, hinert, -⟩ | ⟨-, hbody⟩ := checkIds_cases s.priv devId layerId
    (flushTo s.priv frame fbAddr fbSize s.handed buffer)
  · have he' := he.trans hinert
    exact ⟨disciplined_of_inert hlive hret he', next_of_inert hret he'⟩
  · obtain ⟨ret, ops, heq, hsound, hafter, hnone⟩ :=
      flushTo_uses s.priv fbSize hframe hhanded buffer
    have he' := (he.trans hbody).trans heq
    constructor
    · constructor
      · rw [he']
        exact hsound
      · intro r _
        rw [he']
        exact hnone r
      · rw [he']
        exact hafter.trans hlive
      · rintro _ _ ⟨⟩
    · simp only [Board.next, he', hafter, handedAfter, beforeAfter]

theorem releaseIf_held (lent : Finset Resource) (p : Prop) [Decidable p] (r : Resource)
    (rest : Multiset Resource) : Sound lent (heldIf p r + rest) (releaseIf p r) ∧
      after (heldIf p r + rest) (releaseIf p r) = rest := by
  by_cases h : p <;> simp [releaseIf, h, Sound, after, Op.Sound, Op.after]

theorem handOut_held_iff {rest : Multiset Resource} {layerAddr malloc : Addr} :
    .block malloc ::ₘ (rest + heldIf (layerAddr ≠ 0) (.block layerAddr)) = rest + {.block malloc} ↔
      layerAddr = 0 := by
  rw [← Multiset.singleton_add, add_comm, add_right_cancel_iff]
  by_cases h : layerAddr = 0 <;> simp [h]

section HandOut

variable {b : Board σ ω} {s : State σ} {devId layerId : ℕ} {buffer : Bool} {malloc : Addr} {p : σ}
  (he : b.effect s (.getLayerBuffer devId layerId buffer malloc)
    = ⟨.success, p, [.acquire (.block malloc), .use (.block malloc)]⟩)
include he

theorem handOut_disciplined_iff : Disciplined b s (.getLayerBuffer devId layerId buffer malloc) ↔
    .block malloc ::ₘ s.live = b.held p := by
  constructor
  · intro hd
    have hacc := hd.accounted
    rw [he] at hacc
    exact hacc
  · intro hacc
    constructor
    · simp [he, Sound, Op.Sound, Op.after]
    · simp [he]
    · rw [he]
      exact hacc
    · rintro _ _ ⟨⟩

theorem handOut_next : b.next s (.getLayerBuffer devId layerId buffer malloc)
    = ⟨p, .block malloc ::ₘ s.live, malloc :: s.handed, s.before⟩ := by
  simp only [Board.next, he, after, Op.after, handedAfter, beforeAfter]

end HandOut

theorem handed_cons {live : Multiset Resource} {handed : List Addr} (malloc : Addr)
    (h : ∀ a ∈ handed, .block a ∈ live) :
    ∀ a ∈ malloc :: handed, .block a ∈ .block malloc ::ₘ live := by
  intro a ha
  rcases List.mem_cons.mp ha with rfl | ha
  · exact Multiset.mem_cons_self _ _
  · exact Multiset.mem_cons_of_mem (h a ha)

theorem handed_eq_nil {live : Multiset Resource} {handed : List Addr}
    (h : ∀ a ∈ handed, .block a ∈ live) (hlive : live = 0) : handed = [] := by
  rw [List.eq_nil_iff_forall_not_mem]
  intro a ha
  have hmem := h a ha
  rw [hlive] at hmem
  exact Multiset.notMem_zero _ hmem

namespace Mapped

/-- No CreateLayer on an open layer and no mmap that fails, no second GetLayerBuffer, and no CloseLayer
of a layer that is mapped. -/
def Safe (s : State LayerPrivate) : Event Os → Prop
  | .createLayer devId layerInfo layerId os => layerInfo ≠ none ∧ layerId = true ∧ devId = devID →
      s.priv.fd < 0 ∧ (0 ≤ os.fd → os.mmap ≠ mapFailed)
  | .closeLayer devId layerId => devId = devID ∧ layerId = layerID → s.priv.fbAddr = 0
  | .flush .. => True
  | .getLayerBuffer devId layerId buffer malloc => buffer = true → devId = devID ∧ layerId = layerID →
      0 ≤ s.priv.fd → malloc ≠ 0 → s.priv.layerAddr = 0

structure Inv (s : State LayerPrivate) : Prop where
  live : s.live = held s.priv
  open_iff : 0 ≤ s.priv.fd ↔ s.priv.fbAddr ≠ 0
  valid : s.priv.fbAddr ≠ mapFailed
  buffer : s.priv.layerAddr ≠ 0 → 0 ≤ s.priv.fd
  before_isSome : s.before.isSome ↔ 0 ≤ s.priv.fd
  before : ∀ p, s.before = some p → p.fbAddr = 0
  handed : ∀ a ∈ s.handed, .block a ∈ s.live

@[simp] theorem mapped_held : mapped.held = held := rfl

@[simp] theorem mapped_lent : mapped.lent = ∅ := rfl

@[simp] theorem fd_mem_held {s : LayerPrivate} {n : ℤ} : .fd n ∈ held s ↔ 0 ≤ s.fd ∧ n = s.fd := by
  simp [held, mem_heldIf]

@[simp] theorem mapping_mem_held {s : LayerPrivate} {a : Addr} :
    .mapping a ∈ held s ↔ s.fbAddr ≠ 0 ∧ a = s.fbAddr := by
  simp [held, mem_heldIf]

@[simp] theorem block_mem_held {s : LayerPrivate} {a : Addr} :
    .block a ∈ held s ↔ s.layerAddr ≠ 0 ∧ a = s.layerAddr := by
  simp [held, mem_heldIf]

theorem inv_initial : Inv mapped.initial := by
  constructor <;> simp [Board.initial, mapped, layerPriv, held, mapFailed]

abbrev Spec := DisplayLayer.Spec mapped Inv Safe

/-- A layer that is not open has nothing. -/
structure Closed (s : State LayerPrivate) : Prop where
  fbAddr : s.priv.fbAddr = 0
  layerAddr : s.priv.layerAddr = 0
  live : s.live = 0
  before : s.before = none
  handed : s.handed = []

theorem Inv.closed {s : State LayerPrivate} (hI : Inv s) (hfd : s.priv.fd < 0) : Closed s := by
  have hnot : ¬ 0 ≤ s.priv.fd := not_le.mpr hfd
  have hfb : s.priv.fbAddr = 0 := not_not.mp fun h => hnot (hI.open_iff.mpr h)
  have hlayer : s.priv.layerAddr = 0 := not_not.mp fun h => hnot (hI.buffer h)
  have hlive : s.live = 0 := by
    rw [hI.live, held]
    simp [hnot, hfb, hlayer]
  refine ⟨hfb, hlayer, hlive, ?_, handed_eq_nil hI.handed hlive⟩
  exact Option.not_isSome_iff_eq_none.mp fun h => hnot (hI.before_isSome.mp h)

/-- The descriptor of an open layer is lost when the record holds another or none. -/
theorem Inv.closed_of_accounted {s : State LayerPrivate} (hI : Inv s) {p : LayerPrivate}
    {ops : List (Op Resource)} (hacc : after s.live ops = held p)
    (hkept : .fd s.priv.fd ∈ s.live → .fd s.priv.fd ∈ after s.live ops)
    (hlost : .fd s.priv.fd ∈ s.live → 0 ≤ p.fd → s.priv.fd ≠ p.fd) : s.priv.fd < 0 := by
  by_contra hopen
  have hmem : .fd s.priv.fd ∈ s.live := by
    rw [hI.live]
    exact fd_mem_held.mpr ⟨not_lt.mp hopen, rfl⟩
  have hheld := hkept hmem
  rw [hacc, fd_mem_held] at hheld
  exact hlost hmem hheld.1 hheld.2

section Create

variable {s : State LayerPrivate} {devId : ℕ} {layerInfo : Option Int32} {layerId : Bool} {os : Os}

theorem create_openFails (hI : Inv s) (hvalid : layerInfo ≠ none ∧ layerId = true ∧ devId = devID)
    (hfd : os.fd < 0) (he : mapped.effect s (.createLayer devId layerInfo layerId os)
      = ⟨.fdErr, { s.priv with fd := os.fd }, []⟩) :
    Spec s (.createLayer devId layerInfo layerId os) := by
  have hnot : ¬ 0 ≤ os.fd := not_le.mpr hfd
  constructor
  · constructor
    · rintro hd -
      have hacc := hd.accounted
      rw [he] at hacc
      exact ⟨hI.closed_of_accounted hacc id fun _ h => absurd h hnot, fun h => absurd h hnot⟩
    · intro hsafe
      have hc := hI.closed (hsafe hvalid).1
      constructor
      · simp [he, Sound]
      · simp [he]
      · simp [he, after, held, hnot, hc.live, hc.fbAddr, hc.layerAddr]
      · rintro _ _ ⟨⟩
  · intro hsafe
    have hc := hI.closed (hsafe hvalid).1
    constructor <;>
      simp [Board.next, he, after, handedAfter, beforeAfter, held, hc.live, hc.before, hc.handed,
        hc.fbAddr, hc.layerAddr, hnot, mapFailed]

theorem create_mmapNull (hI : Inv s) (hvalid : layerInfo ≠ none ∧ layerId = true ∧ devId = devID)
    (hmmap : os.mmap = 0) (he : mapped.effect s (.createLayer devId layerInfo layerId os)
      = ⟨.failure, { s.priv with fd := -1, pitch := 0, fbSize := 0, fbAddr := 0 },
          [.acquire (.fd os.fd), .release (.fd os.fd)]⟩) :
    Spec s (.createLayer devId layerInfo layerId os) := by
  have hvalid' : os.mmap ≠ mapFailed := by
    rw [hmmap]
    decide
  constructor
  · constructor
    · rintro hd -
      have hacc := hd.accounted
      rw [he] at hacc
      have hlost : .fd s.priv.fd ∈ s.live → (0 : ℤ) ≤ -1 → s.priv.fd ≠ -1 := fun _ h =>
        absurd h (by decide)
      refine ⟨hI.closed_of_accounted hacc (fun h => ?_) hlost, fun _ => hvalid'⟩
      simpa [after, Op.after] using h
    · intro hsafe
      have hc := hI.closed (hsafe hvalid).1
      constructor
      · simp [he, Sound, Op.Sound, Op.after]
      · simp [he]
      · simp [he, after, Op.after, held, hc.live, hc.layerAddr]
      · rintro _ _ ⟨⟩
  · intro hsafe
    have hc := hI.closed (hsafe hvalid).1
    constructor <;>
      simp [Board.next, he, after, Op.after, handedAfter, beforeAfter, held, hc.live, hc.before,
        hc.handed, hc.layerAddr, mapFailed]

theorem create_maps (hI : Inv s) (hvalid : layerInfo ≠ none ∧ layerId = true ∧ devId = devID)
    (hfd : 0 ≤ os.fd) (hmmap : os.mmap ≠ 0) {pitch : Int32} {fbSize : UInt32}
    (he : mapped.effect s (.createLayer devId layerInfo layerId os)
      = ⟨.success, { s.priv with fd := os.fd, pitch, fbSize, fbAddr := os.mmap },
          .acquire (.fd os.fd) :: ((if os.mmap = mapFailed then [] else [.acquire (.mapping os.mmap)])
            ++ [.use (.mapping os.mmap)])⟩)
    (hg : .fd os.fd ∉ s.live) : Spec s (.createLayer devId layerInfo layerId os) := by
  have hheld : Closed s → os.mmap ≠ mapFailed →
      after s.live (mapped.effect s (.createLayer devId layerInfo layerId os)).ops
        = held (mapped.effect s (.createLayer devId layerInfo layerId os)).priv := by
    intro hc hmap
    simp only [he, if_neg hmap, hc.live, hc.layerAddr, held, List.cons_append, List.nil_append, after,
      Op.after, heldIf_pos hfd, heldIf_pos hmmap, ne_eq, not_true_eq_false, not_false_eq_true,
      heldIf_neg, add_zero]
    exact Multiset.cons_swap _ _ 0
  constructor
  · constructor
    · rintro hd -
      have hacc := hd.accounted
      rw [he] at hacc
      have hclosed : s.priv.fd < 0 := by
        apply hI.closed_of_accounted hacc
        · intro h
          by_cases hf : os.mmap = mapFailed <;> simp [hf, after, Op.after, h]
        · rintro h - (heq : s.priv.fd = os.fd)
          exact hg (heq ▸ h)
      refine ⟨hclosed, fun _ hf => ?_⟩
      have hsound := hd.sound
      simp [he, hf, Sound, Op.Sound, Op.after, (hI.closed hclosed).live] at hsound
    · intro hsafe
      obtain ⟨hclosed, hmap⟩ := hsafe hvalid
      have hc := hI.closed hclosed
      constructor
      · simp [he, hmap hfd, Sound, Op.Sound, Op.after]
      · simp [he]
      · exact hheld hc (hmap hfd)
      · rintro _ _ ⟨⟩
  · intro hsafe
    obtain ⟨hclosed, hmap⟩ := hsafe hvalid
    have hc := hI.closed hclosed
    constructor
    case live => exact hheld hc (hmap hfd)
    all_goals
      simp [Board.next, he, hmap hfd, handedAfter, beforeAfter, hc.handed, hc.fbAddr, hc.layerAddr, hfd,
        hmmap]

theorem create_spec (hI : Inv s)
    (hg : ∀ op ∈ (mapped.effect s (.createLayer devId layerInfo layerId os)).ops,
      Granted mapped.lent s.live op) : Spec s (.createLayer devId layerInfo layerId os) := by
  obtain ⟨ret, hret, he, hnot⟩ | ⟨width, hvalid, he⟩ :=
    checkCreate_cases s.priv devId layerInfo layerId (openLayer s.priv os)
  · exact spec_of_inert hI hI.live hret he fun h => absurd h hnot
  · change mapped.effect s (.createLayer devId layerInfo layerId os) = openLayer s.priv os width at he
    unfold openLayer at he
    by_cases hfd : os.fd < 0
    · rw [if_pos hfd] at he
      exact create_openFails hI hvalid hfd he
    · rw [if_neg hfd] at he
      by_cases hmmap : os.mmap = 0
      · rw [if_pos hmmap] at he
        exact create_mmapNull hI hvalid hmmap he
      · rw [if_neg hmmap] at he
        have hgranted : Granted mapped.lent s.live (.acquire (.fd os.fd)) := by
          apply hg
          rw [he]
          exact List.mem_cons_self
        exact create_maps hI hvalid (not_lt.mp hfd) hmmap he hgranted.2

end Create

section Layer

variable {s : State LayerPrivate} {devId layerId : ℕ} {buffer : Bool} {malloc : Addr}

theorem close_spec (hI : Inv s) : Spec s (.closeLayer devId layerId) := by
  obtain ⟨ret, hret, he, hnot⟩ | ⟨hvalid, he⟩ := checkIds_cases s.priv devId layerId
    ⟨.success, { s.priv with fd := -1, layerAddr := 0 },
      releaseIf (0 ≤ s.priv.fd) (.fd s.priv.fd)
        ++ releaseIf (s.priv.layerAddr ≠ 0) (.block s.priv.layerAddr)
        ++ releaseIf (s.priv.fbAddr ≠ 0) (.mapping s.priv.fbAddr)⟩
  · exact spec_of_inert hI hI.live hret he fun h => absurd h hnot
  · change mapped.effect s (.closeLayer devId layerId) = _ at he
    have hclosed : s.priv.fbAddr = 0 → s.priv.fd < 0 := by
      intro hfb
      by_contra hopen
      exact hI.open_iff.mp (not_lt.mp hopen) hfb
    have hnothing : s.priv.fbAddr = 0 → mapped.effect s (.closeLayer devId layerId)
        = ⟨.success, { s.priv with fd := -1, layerAddr := 0 }, []⟩ := by
      intro hfb
      rw [he, releaseIf, if_neg (not_le.mpr (hclosed hfb)), releaseIf, releaseIf]
      simp [hfb, (hI.closed (hclosed hfb)).layerAddr]
    constructor
    · constructor
      · rintro hd -
        by_contra hfb
        obtain ⟨p, hp⟩ := Option.isSome_iff_exists.mp (hI.before_isSome.mpr (hI.open_iff.mpr hfb))
        have hrestored := hd.restored devId layerId rfl (by rw [he]) p hp
        rw [he] at hrestored
        have haddr := congrArg LayerPrivate.fbAddr hrestored
        exact hfb (haddr.trans (hI.before p hp))
      · intro hsafe
        have hfb := hsafe hvalid
        have hc := hI.closed (hclosed hfb)
        constructor
        · simp [hnothing hfb, Sound]
        · simp
        · simp [hnothing hfb, after, held, hc.live, hfb]
        · rintro _ _ - - p hp
          rw [hc.before] at hp
          cases hp
    · intro hsafe
      have hfb := hsafe hvalid
      have hc := hI.closed (hclosed hfb)
      constructor <;>
        simp [Board.next, hnothing hfb, after, held, handedAfter, beforeAfter, mapFailed, hc.live,
          hc.handed, hfb]

/-- The first CloseLayer of a layer releases each of its resources once. -/
theorem close_releases (hI : Inv s) (hids : devId = devID ∧ layerId = layerID) :
    Sound mapped.lent s.live (mapped.effect s (.closeLayer devId layerId)).ops ∧
      after s.live (mapped.effect s (.closeLayer devId layerId)).ops = 0 := by
  obtain ⟨rfl, rfl⟩ := hids
  have hops : (mapped.effect s (.closeLayer devID layerID)).ops
      = releaseIf (0 ≤ s.priv.fd) (.fd s.priv.fd)
      ++ releaseIf (s.priv.layerAddr ≠ 0) (.block s.priv.layerAddr)
      ++ releaseIf (s.priv.fbAddr ≠ 0) (.mapping s.priv.fbAddr) := rfl
  have hlive : s.live = heldIf (0 ≤ s.priv.fd) (.fd s.priv.fd)
      + (heldIf (s.priv.layerAddr ≠ 0) (.block s.priv.layerAddr)
      + (heldIf (s.priv.fbAddr ≠ 0) (.mapping s.priv.fbAddr) + 0)) := by
    rw [hI.live, held, add_assoc, add_zero, add_comm (heldIf (s.priv.fbAddr ≠ 0) _)]
  obtain ⟨hfd, hfd'⟩ := releaseIf_held mapped.lent (0 ≤ s.priv.fd) (.fd s.priv.fd)
    (heldIf (s.priv.layerAddr ≠ 0) (.block s.priv.layerAddr)
      + (heldIf (s.priv.fbAddr ≠ 0) (.mapping s.priv.fbAddr) + 0))
  obtain ⟨hlayer, hlayer'⟩ := releaseIf_held mapped.lent (s.priv.layerAddr ≠ 0)
    (.block s.priv.layerAddr) (heldIf (s.priv.fbAddr ≠ 0) (.mapping s.priv.fbAddr) + 0)
  obtain ⟨hfb, hfb'⟩ := releaseIf_held mapped.lent (s.priv.fbAddr ≠ 0) (.mapping s.priv.fbAddr) 0
  rw [hops, hlive]
  simp only [sound_append, after_append, hfd', hlayer']
  exact ⟨⟨⟨hfd, hlayer⟩, hfb⟩, hfb'⟩

theorem getLayerBuffer_spec (hI : Inv s) :
    Spec s (.getLayerBuffer devId layerId buffer malloc) := by
  cases buffer with
  | false => exact spec_of_inert hI hI.live (by decide : DispErrCode.nullPtr ≠ .success) rfl nofun
  | true =>
    obtain ⟨ret, hret, he, hnot⟩ | ⟨hvalid, he⟩ := checkIds_cases s.priv devId layerId
      (if s.priv.fd < 0 ∨ malloc = 0 then ⟨.failure, s.priv, []⟩
      else ⟨.success, { s.priv with layerAddr := malloc },
        [.acquire (.block malloc), .use (.block malloc)]⟩)
    · exact spec_of_inert hI hI.live hret he fun _ h => absurd h hnot
    · change mapped.effect s (.getLayerBuffer devId layerId true malloc) = _ at he
      by_cases hfail : s.priv.fd < 0 ∨ malloc = 0
      · rw [if_pos hfail] at he
        refine spec_of_inert hI hI.live (by decide) he fun _ _ hfd hm => ?_
        exact absurd hfail (not_or.mpr ⟨not_lt.mpr hfd, hm⟩)
      · rw [if_neg hfail] at he
        obtain ⟨hfd, hm⟩ := not_or.mp hfail
        have hheld : .block malloc ::ₘ s.live = held { s.priv with layerAddr := malloc } ↔
            s.priv.layerAddr = 0 := by
          rw [hI.live, held, held, heldIf_pos hm]
          exact handOut_held_iff
        constructor
        · rw [handOut_disciplined_iff he]
          exact hheld.trans ⟨fun h _ _ _ _ => h, fun h => h rfl hvalid (not_lt.mp hfd) hm⟩
        · intro hsafe
          rw [handOut_next he]
          exact {
            live := hheld.mpr (hsafe rfl hvalid (not_lt.mp hfd) hm)
            open_iff := hI.open_iff
            valid := hI.valid
            buffer := fun _ => not_lt.mp hfd
            before_isSome := hI.before_isSome
            before := hI.before
            handed := handed_cons malloc hI.handed }

theorem spec (hI : Inv s) (e : Event Os)
    (hg : ∀ op ∈ (mapped.effect s e).ops, Granted mapped.lent s.live op) : Spec s e := by
  cases e with
  | createLayer devId layerInfo layerId os => exact create_spec hI hg
  | closeLayer devId layerId => exact close_spec hI
  | getLayerBuffer devId layerId buffer malloc => exact getLayerBuffer_spec hI
  | flush devId layerId buffer =>
    have hframe : s.priv.fbAddr ≠ 0 →
        .mapping s.priv.fbAddr ∈ s.live ∨ .mapping s.priv.fbAddr ∈ mapped.lent := by
      intro hfb
      rw [hI.live]
      exact Or.inl (mapping_mem_held.mpr ⟨hfb, rfl⟩)
    obtain ⟨hd, hnext⟩ := flush_spec (b := mapped) hI.live rfl hframe hI.handed
    refine ⟨iff_of_true hd trivial, fun _ => ?_⟩
    rw [hnext]
    exact hI

end Layer

end Mapped

namespace Gpu

/-- No CreateLayer that opens the device again, no second GetLayerBuffer, and no CloseLayer of a layer
that has the framebuffer. -/
def Safe (s : State LayerPrivateFb) : Event Os → Prop
  | .createLayer devId layerInfo layerId os => layerInfo ≠ none ∧ layerId = true ∧ devId = devID →
      os.fbmem ≠ none → s.priv.fbmem = 0
  | .closeLayer devId layerId => devId = devID ∧ layerId = layerID → s.priv.fbAddr = 0
  | .flush .. => True
  | .getLayerBuffer devId layerId buffer malloc => buffer = true → devId = devID ∧ layerId = layerID →
      0 ≤ s.priv.fd → s.priv.fbmem ≠ 0 → malloc ≠ 0 → s.priv.layerAddr = 0

structure Inv (fb : Addr) (s : State LayerPrivateFb) : Prop where
  live : s.live = held s.priv
  open_iff : s.priv.fbmem ≠ 0 ↔ s.priv.fbAddr ≠ 0
  frame : s.priv.fbAddr ≠ 0 → s.priv.fbAddr = fb
  buffer : s.priv.layerAddr ≠ 0 → s.priv.fbmem ≠ 0
  before : s.before.isSome → s.priv.fbmem ≠ 0
  handed : ∀ a ∈ s.handed, .block a ∈ s.live

theorem inv_initial (fb : Addr) : Inv fb (gpu fb).initial := by
  constructor <;> simp [Board.initial, gpu, layerPriv, held]

abbrev Spec (fb : Addr) := DisplayLayer.Spec (gpu fb) (Inv fb) Safe

variable {fb : Addr} {s : State LayerPrivateFb}

structure Closed (s : State LayerPrivateFb) : Prop where
  fbmem : s.priv.fbmem = 0
  fbAddr : s.priv.fbAddr = 0
  layerAddr : s.priv.layerAddr = 0
  live : s.live = 0
  before : s.before = none
  handed : s.handed = []

theorem Inv.closed (hI : Inv fb s) (hfbmem : s.priv.fbmem = 0) : Closed s := by
  have hfb : s.priv.fbAddr = 0 := not_not.mp fun h => hI.open_iff.mpr h hfbmem
  have hlayer : s.priv.layerAddr = 0 := not_not.mp fun h => hI.buffer h hfbmem
  have hlive : s.live = 0 := by
    rw [hI.live, held]
    simp [hfbmem, hlayer]
  refine ⟨hfbmem, hfb, hlayer, hlive, ?_, handed_eq_nil hI.handed hlive⟩
  exact Option.not_isSome_iff_eq_none.mp fun h => hI.before h hfbmem

@[simp] theorem gpu_held : (gpu fb).held = held := rfl

@[simp] theorem gpu_lent : (gpu fb).lent = {.block fb} := rfl

@[simp] theorem fbOpen_mem_held {p : LayerPrivateFb} {a : Addr} :
    .fbOpen a ∈ held p ↔ p.fbmem ≠ 0 ∧ a = p.fbmem := by
  simp [held, mem_heldIf]

section Create

variable {devId : ℕ} {layerInfo : Option Int32} {layerId : Bool} {os : Os}

theorem create_openFails (hI : Inv fb s) (hos : os.fbmem = none)
    (he : (gpu fb).effect s (.createLayer devId layerInfo layerId os)
      = ⟨.fdErr, { s.priv with fd := -enxio }, []⟩) :
    Spec fb s (.createLayer devId layerInfo layerId os) := by
  constructor
  · apply iff_of_true
    · constructor
      · simp [he, Sound]
      · simp [he]
      · rw [he]
        exact hI.live
      · rintro _ _ ⟨⟩
    · intro _ hsome
      exact absurd hos hsome
  · intro _
    simp only [Board.next, he, after, handedAfter, beforeAfter]
    exact ⟨hI.live, hI.open_iff, hI.frame, hI.buffer, hI.before, hI.handed⟩

theorem create_ioctlNull (hI : Inv fb s) (hvalid : layerInfo ≠ none ∧ layerId = true ∧ devId = devID)
    {fbmem : Addr} (hos : os.fbmem = some fbmem)
    (he : (gpu fb).effect s (.createLayer devId layerInfo layerId os)
      = ⟨.failure, { s.priv with fd := 0, pitch := 0, fbSize := 0, fbAddr := 0, fbmem := 0 },
          [.acquire (.fbOpen fbmem), .release (.fbOpen fbmem)]⟩) :
    Spec fb s (.createLayer devId layerInfo layerId os) := by
  have hafter : after s.live ((gpu fb).effect s (.createLayer devId layerInfo layerId os)).ops
      = s.live := by
    simp [he, after, Op.after]
  constructor
  · constructor
    · rintro hd - -
      by_contra hopen
      have hmem : .fbOpen s.priv.fbmem ∈ s.live := by
        rw [hI.live]
        exact fbOpen_mem_held.mpr ⟨hopen, rfl⟩
      rw [← hafter, hd.accounted, he, gpu_held, fbOpen_mem_held] at hmem
      exact hmem.1 rfl
    · intro hsafe
      have hc := hI.closed (hsafe hvalid (by simp [hos]))
      constructor
      · simp [he, Sound, Op.Sound, Op.after]
      · simp [he]
      · simp [he, after, Op.after, held, hc.live, hc.layerAddr]
      · rintro _ _ ⟨⟩
  · intro hsafe
    have hc := hI.closed (hsafe hvalid (by simp [hos]))
    constructor <;>
      simp [Board.next, he, after, Op.after, handedAfter, beforeAfter, held, hc.live, hc.layerAddr,
        hc.before, hc.handed]

theorem create_opens (hI : Inv fb s) (hvalid : layerInfo ≠ none ∧ layerId = true ∧ devId = devID)
    {fbmem : Addr} (hos : os.fbmem = some fbmem) (hfbmem : fbmem ≠ 0) (hfb : fb ≠ 0) {fd : ℤ}
    {pitch : Int32} {fbSize : UInt32} (he : (gpu fb).effect s (.createLayer devId layerInfo layerId os)
      = ⟨.success, { s.priv with fd, pitch, fbSize, fbAddr := fb, fbmem },
          [.acquire (.fbOpen fbmem), .use (.block fb)]⟩) :
    Spec fb s (.createLayer devId layerInfo layerId os) := by
  have hafter : after s.live ((gpu fb).effect s (.createLayer devId layerInfo layerId os)).ops
      = .fbOpen fbmem ::ₘ s.live := by
    rw [he]
    rfl
  constructor
  · constructor
    · rintro hd - -
      by_contra hopen
      have hcard := congrArg Multiset.card hd.accounted
      rw [hafter, hI.live, he] at hcard
      simp [held, hopen, hfbmem] at hcard
    · intro hsafe
      have hc := hI.closed (hsafe hvalid (by simp [hos]))
      constructor
      · simp [he, Sound, Op.Sound]
      · simp [he]
      · simp [he, after, Op.after, held, hc.live, hc.layerAddr, hfbmem]
      · rintro _ _ ⟨⟩
  · intro hsafe
    have hc := hI.closed (hsafe hvalid (by simp [hos]))
    constructor <;>
      simp [Board.next, he, after, Op.after, handedAfter, beforeAfter, held, hc.live, hc.layerAddr,
        hc.handed, hfbmem, hfb]

theorem create_spec (hI : Inv fb s)
    (hg : ∀ op ∈ ((gpu fb).effect s (.createLayer devId layerInfo layerId os)).ops,
      Granted (gpu fb).lent s.live op) : Spec fb s (.createLayer devId layerInfo layerId os) := by
  obtain ⟨ret, hret, he, hnot⟩ | ⟨width, hvalid, he⟩ :=
    checkCreate_cases s.priv devId layerInfo layerId (openLayer fb s.priv os)
  · exact spec_of_inert hI hI.live hret he fun h => absurd h hnot
  · change (gpu fb).effect s (.createLayer devId layerInfo layerId os)
      = openLayer fb s.priv os width at he
    unfold openLayer at he
    cases hos : os.fbmem with
    | none =>
      rw [hos] at he
      exact create_openFails hI hos he
    | some fbmem =>
      simp only [hos] at he
      by_cases hfb : (if os.ioctl then fb else 0) = 0
      · rw [if_pos hfb] at he
        exact create_ioctlNull hI hvalid hos he
      · have hioctl : os.ioctl = true := by
          by_contra h
          exact hfb (if_neg h)
        rw [if_neg hfb] at he
        rw [if_pos hioctl] at hfb
        simp only [if_pos hioctl] at he
        have hgranted := hg (.acquire (.fbOpen fbmem)) (by simp [he])
        exact create_opens hI hvalid hos hgranted hfb he

end Create

section Layer

variable {devId layerId : ℕ} {buffer : Bool} {malloc : Addr}

theorem close_spec (hI : Inv fb s) : Spec fb s (.closeLayer devId layerId) := by
  obtain ⟨ret, hret, he, hnot⟩ | ⟨hvalid, he⟩ := checkIds_cases s.priv devId layerId
    ⟨.success, { s.priv with fd := -1, layerAddr := 0, fbAddr := 0, fbmem := 0 },
      releaseIf (s.priv.fbmem ≠ 0) (.fbOpen s.priv.fbmem)
        ++ releaseIf (s.priv.layerAddr ≠ 0) (.block s.priv.layerAddr)
        ++ releaseIf (s.priv.fbAddr ≠ 0) (.block s.priv.fbAddr)⟩
  · exact spec_of_inert hI hI.live hret he fun h => absurd h hnot
  · change (gpu fb).effect s (.closeLayer devId layerId) = _ at he
    have hclosed : s.priv.fbAddr = 0 → Closed s := fun hfb =>
      hI.closed (not_not.mp fun h => hI.open_iff.mp h hfb)
    have hnothing : s.priv.fbAddr = 0 → ((gpu fb).effect s (.closeLayer devId layerId)).ops = [] := by
      intro hfb
      have hc := hclosed hfb
      simp [he, releaseIf, hfb, hc.fbmem, hc.layerAddr]
    constructor
    · constructor
      · rintro hd -
        by_contra hfb
        apply hd.spared (.block fb) (Finset.mem_singleton_self _)
        rw [he, hI.frame hfb]
        simp [releaseIf, hI.frame hfb ▸ hfb]
      · intro hsafe
        have hfb := hsafe hvalid
        have hc := hclosed hfb
        constructor
        · simp [hnothing hfb, Sound]
        · simp [hnothing hfb]
        · rw [hnothing hfb, he]
          simp [after, held, hc.live]
        · rintro _ _ - - p hp
          rw [hc.before] at hp
          cases hp
    · intro hsafe
      have hfb := hsafe hvalid
      have hc := hclosed hfb
      have hnext : (gpu fb).next s (.closeLayer devId layerId)
          = ⟨{ s.priv with fd := -1, layerAddr := 0, fbAddr := 0, fbmem := 0 }, 0, [], none⟩ := by
        simp only [Board.next, hnothing hfb, after, hc.live]
        simp only [he, handedAfter, beforeAfter, hc.handed]
      rw [hnext]
      constructor <;> simp [held]

theorem getLayerBuffer_spec (hI : Inv fb s) :
    Spec fb s (.getLayerBuffer devId layerId buffer malloc) := by
  cases buffer with
  | false => exact spec_of_inert hI hI.live (by decide : DispErrCode.nullPtr ≠ .success) rfl nofun
  | true =>
    obtain ⟨ret, hret, he, hnot⟩ | ⟨hvalid, he⟩ := checkIds_cases s.priv devId layerId
      (if s.priv.fd < 0 ∨ s.priv.fbmem = 0 ∨ malloc = 0 then ⟨.failure, s.priv, []⟩
      else ⟨.success, { s.priv with layerAddr := malloc },
        [.acquire (.block malloc), .use (.block malloc)]⟩)
    · exact spec_of_inert hI hI.live hret he fun _ h => absurd h hnot
    · change (gpu fb).effect s (.getLayerBuffer devId layerId true malloc) = _ at he
      by_cases hfail : s.priv.fd < 0 ∨ s.priv.fbmem = 0 ∨ malloc = 0
      · rw [if_pos hfail] at he
        refine spec_of_inert hI hI.live (by decide) he fun _ _ hfd hfbmem hm => ?_
        exact absurd hfail (not_or.mpr ⟨not_lt.mpr hfd, not_or.mpr ⟨hfbmem, hm⟩⟩)
      · rw [if_neg hfail] at he
        obtain ⟨hfd, hmore⟩ := not_or.mp hfail
        obtain ⟨hfbmem, hm⟩ := not_or.mp hmore
        have hheld : .block malloc ::ₘ s.live = held { s.priv with layerAddr := malloc } ↔
            s.priv.layerAddr = 0 := by
          rw [hI.live, held, held, heldIf_pos hm]
          exact handOut_held_iff
        constructor
        · rw [handOut_disciplined_iff he]
          exact hheld.trans ⟨fun h _ _ _ _ _ => h, fun h => h rfl hvalid (not_lt.mp hfd) hfbmem hm⟩
        · intro hsafe
          rw [handOut_next he]
          exact {
            live := hheld.mpr (hsafe rfl hvalid (not_lt.mp hfd) hfbmem hm)
            open_iff := hI.open_iff
            frame := hI.frame
            buffer := fun _ => hfbmem
            before := hI.before
            handed := handed_cons malloc hI.handed }

theorem spec (hI : Inv fb s) (e : Event Os)
    (hg : ∀ op ∈ ((gpu fb).effect s e).ops, Granted (gpu fb).lent s.live op) : Spec fb s e := by
  cases e with
  | createLayer devId layerInfo layerId os => exact create_spec hI hg
  | closeLayer devId layerId => exact close_spec hI
  | getLayerBuffer devId layerId buffer malloc => exact getLayerBuffer_spec hI
  | flush devId layerId buffer =>
    have hframe : s.priv.fbAddr ≠ 0 →
        .block s.priv.fbAddr ∈ s.live ∨ .block s.priv.fbAddr ∈ (gpu fb).lent := by
      intro hfb
      rw [hI.frame hfb]
      exact Or.inr (Finset.mem_singleton_self _)
    obtain ⟨hd, hnext⟩ := flush_spec (b := gpu fb) hI.live rfl hframe hI.handed
    refine ⟨iff_of_true hd trivial, fun _ => ?_⟩
    rw [hnext]
    exact hI

end Layer

end Gpu

theorem next_granted {b : Board σ ω} {s : State σ} {e : Event ω}
    (hg : ∀ op ∈ (b.effect s e).ops, Granted b.lent s.live op) :
    b.system.next s e = some (b.next s e) := if_pos hg

theorem discipline_iff {b : Board σ ω} {Inv : State σ → Prop} {Safe : State σ → Event ω → Prop}
    (hinit : Inv b.initial)
    (hspec : ∀ s e, Inv s → (∀ op ∈ (b.effect s e).ops, Granted b.lent s.live op) →
      Spec b Inv Safe s e)
    (es : List (Event ω)) :
    StepsMeet b.system (Disciplined b) b.initial es ↔ StepsMeet b.system Safe b.initial es := by
  apply stepsMeet_iff (I := Inv) _ _ hinit
  · intro s e t hI hsafe ht
    obtain ⟨hg, ht⟩ := Option.ite_none_right_eq_some.mp ht
    obtain rfl := Option.some.inj ht
    exact (hspec s e hI hg).inv hsafe
  · intro s e t hI ht
    obtain ⟨hg, -⟩ := Option.ite_none_right_eq_some.mp ht
    exact (hspec s e hI hg).iff

/-- The runs on which the layer keeps its resources in order, on both boards. -/
theorem layer_iff (es : List (Event Mapped.Os)) (fb : Addr) (es' : List (Event Gpu.Os)) :
    (StepsMeet mapped.system (Disciplined mapped) mapped.initial es ↔
      StepsMeet mapped.system Mapped.Safe mapped.initial es) ∧
    (StepsMeet (gpu fb).system (Disciplined (gpu fb)) (gpu fb).initial es' ↔
      StepsMeet (gpu fb).system Gpu.Safe (gpu fb).initial es') := by
  constructor
  · exact discipline_iff Mapped.inv_initial (fun s e hI => Mapped.spec hI e) es
  · exact discipline_iff (Gpu.inv_initial fb) (fun s e hI => Gpu.spec hI e) es'

/-- A layer that is created and closed keeps its mapping's address on the one board, and has freed the
framebuffer of the GPU driver on the other. -/
theorem close_breaks :
    (¬ ∀ es, StepsMeet mapped.system (Disciplined mapped) mapped.initial es) ∧
    ¬ ∀ fb es, StepsMeet (gpu fb).system (Disciplined (gpu fb)) (gpu fb).initial es := by
  constructor
  · intro h
    obtain ⟨-, hrest⟩ := h [.createLayer 0 (some 960) true ⟨3, 0x1000⟩, .closeLayer 0 0] _
      (next_granted (by decide))
    obtain ⟨hclose, -⟩ := hrest _ (next_granted (by decide))
    exact absurd (hclose.restored 0 0 rfl rfl _ rfl) (by decide)
  · intro h
    obtain ⟨-, hrest⟩ := h 0x8000 [.createLayer 0 (some 800) true ⟨some 0x100, true⟩, .closeLayer 0 0] _
      (next_granted (by decide))
    obtain ⟨hclose, -⟩ := hrest _ (next_granted (by decide))
    exact hclose.spared (.block 0x8000) (by decide) (by decide)

end DisplayLayer
