import DeviceQemu.DisplayLayerDiscipline

/-! Where the display layer paints.
SetBackground goes over the geometry of the record, mmap over that of the LayerInfo, and the driver
reports a third one. A frame is what may be written: the bytes that are mapped and reported on the
one board, the framebuffer of the reported size on the other. -/
namespace DisplayLayerPainting

open DisplayLayer ResourceLedger StepSystem

/-- Bytes written at an offset into what a pointer points to. -/
structure Write where
  frame : Resource
  offset : ℕ
  bytes : ℕ
  deriving DecidableEq, Repr

abbrev Frames := Resource → Option ℕ

def Write.Inside (frames : Frames) (w : Write) : Prop :=
  ∃ n, frames w.frame = some n ∧ w.offset + w.bytes ≤ n

def framesAfter (length : ℕ) (frames : Frames) : List (Op Resource) → Frames
  | [] => frames
  | .acquire (.mapping a) :: ops =>
    framesAfter length (Function.update frames (.mapping a) (some length)) ops
  | .release r :: ops => framesAfter length (Function.update frames r none) ops
  | _ :: ops => framesAfter length frames ops

def setBackground (frame : Addr → Resource) (s : LayerPrivate) : List Write :=
  (List.range s.height.toNat).flatMap fun j => (List.range s.width.toNat).map fun i =>
    ⟨frame s.fbAddr, 4 * (UInt32.ofNat i + UInt32.ofNat j * s.width).toNat, 4⟩

/-- memcpy_s fills the whole of `fbSize` also where it fails for its source. -/
def flushWrites (frame : Addr → Resource) (s : LayerPrivate) (devId layerId : ℕ) (buffer : Option Addr) :
    List Write :=
  if devId ≠ devID ∨ layerId ≠ layerID then []
  else
    match buffer with
    | none => []
    | some _ => if memcpyWrites s.fbAddr s.fbSize then [⟨frame s.fbAddr, 0, s.fbSize.toNat⟩] else []

/-- A board with what its pointers point to; `frameLength` is the length of a new mapping. -/
structure Surface (σ ω : Type) extends Board σ ω where
  layer : σ → LayerPrivate
  frame : Addr → Resource
  frames : Frames
  frameLength : LayerPrivate → ℕ

structure Painted (σ : Type) where
  call : State σ
  frames : Frames

variable {σ ω : Type}

def Surface.initial (b : Surface σ ω) : Painted σ := ⟨b.toBoard.initial, b.frames⟩

def Surface.framesAfter (b : Surface σ ω) (s : Painted σ) (e : Event ω) : Frames :=
  DisplayLayerPainting.framesAfter (b.frameLength (b.layer (b.effect s.call e).priv)) s.frames
    (b.effect s.call e).ops

/-- CreateLayer paints the background of the record it has filled in, last of all. -/
def Surface.writes (b : Surface σ ω) (s : State σ) (e : Event ω) : List Write :=
  match e with
  | .createLayer .. =>
    if (b.effect s e).ret = .success then setBackground b.frame (b.layer (b.effect s e).priv) else []
  | .flush devId layerId buffer => flushWrites b.frame (b.layer s.priv) devId layerId buffer
  | _ => []

def Surface.system (b : Surface σ ω) : System (Painted σ) (Event ω) where
  Init s := s = b.initial
  next s e := (b.toBoard.system.next s.call e).map fun call => ⟨call, b.framesAfter s e⟩

def Surface.StaysInside (b : Surface σ ω) (s : Painted σ) (e : Event ω) : Prop :=
  ∀ w ∈ b.writes s.call e, w.Inside (b.framesAfter s e)

/-- hardware/display over a framebuffer of `reported` bytes. -/
def mappedSurface (reported : ℕ) : Surface LayerPrivate Mapped.Os where
  toBoard := mapped
  layer := id
  frame := .mapping
  frames _ := none
  frameLength s := min s.fbSize.toNat reported

/-- riscv32_virt over the framebuffer of the GPU driver, of `reported` bytes, at `fb`. -/
def gpuSurface (fb : Addr) (reported : ℕ) : Surface Gpu.LayerPrivateFb Gpu.Os where
  toBoard := gpu fb
  layer s := s.toLayerPrivate
  frame := .block
  frames r := if r = .block fb then some reported else none
  frameLength _ := 0

theorem update_fewer (r : Resource) (frames : Frames) (r' : Resource) :
    Function.update frames r none r' = frames r' ∨ Function.update frames r none r' = none := by
  by_cases hr : r' = r
  · exact Or.inr (by rw [hr, Function.update_self])
  · exact Or.inl (Function.update_of_ne hr _ _)

theorem framesAfter_fewer {length : ℕ} {frames : Frames} {ops : List (Op Resource)}
    (hops : ∀ op ∈ ops, ∃ r, op = .release r) (r : Resource) :
    framesAfter length frames ops r = frames r ∨ framesAfter length frames ops r = none := by
  induction ops generalizing frames with
  | nil => exact Or.inl rfl
  | cons op ops ih =>
    obtain ⟨released, rfl⟩ := hops op List.mem_cons_self
    have hrest : framesAfter length (Function.update frames released none) ops r
        = Function.update frames released none r ∨ _ :=
      ih fun op hop => hops op (List.mem_cons_of_mem _ hop)
    rcases hrest with hsame | hgone
    · rcases update_fewer released frames r with hother | hnone
      · exact Or.inl (hsame.trans hother)
      · exact Or.inr (hsame.trans hnone)
    · exact Or.inr hgone

theorem index_toNat {i j : ℕ} {width : UInt32} (h : i + j * width.toNat < 2 ^ 32) :
    (UInt32.ofNat i + UInt32.ofNat j * width).toNat = i + j * width.toNat := by
  rw [UInt32.toNat_add, UInt32.toNat_mul, UInt32.toNat_ofNat', UInt32.toNat_ofNat', Nat.mod_mul_mod,
    ← Nat.add_mod, Nat.mod_eq_of_lt h]

theorem index_lt {i j width height : ℕ} (hi : i < width) (hj : j < height) :
    i + j * width < width * height := by
  have hrow : (j + 1) * width ≤ height * width := Nat.mul_le_mul_right width hj
  rw [Nat.succ_mul] at hrow
  rw [Nat.mul_comm width height]
  omega

/-- The loops stay inside exactly a frame that has room for all the words of the geometry. -/
theorem setBackground_inside_iff {frames : Frames} {frame : Addr → Resource} {s : LayerPrivate}
    (hwidth : 0 < s.width.toNat) (hheight : 0 < s.height.toNat)
    (hsize : s.width.toNat * s.height.toNat ≤ 2 ^ 32) :
    (∀ w ∈ setBackground frame s, w.Inside frames) ↔
      ∃ n, frames (frame s.fbAddr) = some n ∧ 4 * (s.width.toNat * s.height.toNat) ≤ n := by
  simp only [setBackground, List.mem_flatMap, List.mem_map, List.mem_range]
  constructor
  · intro h
    obtain ⟨n, hframe, hle⟩ := h _ ⟨s.height.toNat - 1, by omega, s.width.toNat - 1, by omega, rfl⟩
    refine ⟨n, hframe, ?_⟩
    have hlast := index_lt (Nat.sub_one_lt_of_lt hwidth) (Nat.sub_one_lt_of_lt hheight)
    simp only [index_toNat (hlast.trans_le hsize)] at hle
    have hrows : (s.height.toNat - 1) * s.width.toNat
        = s.width.toNat * s.height.toNat - s.width.toNat := by
      rw [Nat.sub_mul, Nat.one_mul, Nat.mul_comm]
    have hone : s.width.toNat ≤ s.width.toNat * s.height.toNat := Nat.le_mul_of_pos_right _ hheight
    omega
  · rintro ⟨n, hframe, hle⟩ w ⟨j, hj, i, hi, rfl⟩
    have hlt := index_lt hi hj
    refine ⟨n, hframe, ?_⟩
    simp only [index_toNat (hlt.trans_le hsize)]
    omega

theorem flushWrites_inside_iff {frames : Frames} {frame : Addr → Resource} {s : LayerPrivate}
    {devId layerId : ℕ} {buffer : Option Addr} :
    (∀ w ∈ flushWrites frame s devId layerId buffer, w.Inside frames) ↔
      (devId = devID ∧ layerId = layerID → buffer ≠ none → memcpyWrites s.fbAddr s.fbSize →
        ∃ n, frames (frame s.fbAddr) = some n ∧ s.fbSize.toNat ≤ n) := by
  unfold flushWrites
  by_cases hids : devId ≠ devID ∨ layerId ≠ layerID
  · rw [if_pos hids]
    exact iff_of_true (by simp) fun h => by tauto
  · rw [if_neg hids]
    have hvalid : devId = devID ∧ layerId = layerID := by tauto
    cases buffer with
    | none => exact iff_of_true (by simp) fun _ h => absurd rfl h
    | some virAddr =>
      by_cases hwrites : memcpyWrites s.fbAddr s.fbSize
      · simp [hwrites, hvalid, Write.Inside]
      · simp [hwrites]

section Step

variable {b : Surface σ ω} {s t : Painted σ} {e : Event ω}

theorem step_cases (ht : b.system.next s e = some t) :
    (∀ op ∈ (b.effect s.call e).ops, Granted b.lent s.call.live op) ∧
      t = ⟨b.toBoard.next s.call e, b.framesAfter s e⟩ := by
  obtain ⟨call, hcall, rfl⟩ := Option.map_eq_some_iff.mp ht
  obtain ⟨hg, hcall⟩ := Option.ite_none_right_eq_some.mp hcall
  obtain rfl := Option.some.inj hcall
  exact ⟨hg, rfl⟩

theorem next_eq (hg : ∀ op ∈ (b.effect s.call e).ops, Granted b.lent s.call.live op) :
    b.system.next s e = some ⟨b.toBoard.next s.call e, b.framesAfter s e⟩ := by
  simp only [Surface.system, next_granted hg, Option.map_some]

theorem create_stays_iff {devId : ℕ} {layerInfo : Option Int32} {layerId : Bool} {os : ω}
    {ret : DispErrCode} {p : σ} {ops : List (Op Resource)}
    (he : b.effect s.call (.createLayer devId layerInfo layerId os) = ⟨ret, p, ops⟩) :
    b.StaysInside s (.createLayer devId layerInfo layerId os) ↔
      (ret = .success → ∀ w ∈ setBackground b.frame (b.layer p),
        w.Inside (framesAfter (b.frameLength (b.layer p)) s.frames ops)) := by
  by_cases hret : ret = .success <;>
    simp [Surface.StaysInside, Surface.writes, Surface.framesAfter, he, hret]

theorem framesAfter_flush {devId layerId : ℕ} {buffer : Option Addr} {frame : Addr → Resource}
    {fbAddr : Addr} {fbSize : UInt32}
    (he : b.effect s.call (.flush devId layerId buffer) = checkIds s.call.priv devId layerId
      (flushTo s.call.priv frame fbAddr fbSize s.call.handed buffer)) :
    (b.effect s.call (.flush devId layerId buffer)).priv = s.call.priv ∧
      b.framesAfter s (.flush devId layerId buffer) = s.frames := by
  rw [Surface.framesAfter, he]
  unfold checkIds flushTo
  constructor <;> repeat' first | rfl | split

/-- An invariant of the record and the frames after a step, from what the step's effect is. -/
theorem inv_of_effect {I : σ → Frames → Prop} {ret : DispErrCode} {p : σ} {ops : List (Op Resource)}
    (he : b.effect s.call e = ⟨ret, p, ops⟩)
    (hinv : I p (framesAfter (b.frameLength (b.layer p)) s.frames ops)) :
    I (b.effect s.call e).priv (b.framesAfter s e) := by
  rw [Surface.framesAfter, he]
  exact hinv

theorem inv_of_handOut {I : σ → Frames → Prop} {devId layerId : ℕ} {fails : Prop} [Decidable fails]
    {p : σ} {malloc : Addr}
    (he : b.effect s.call e = checkIds s.call.priv devId layerId
      (if fails then ⟨.failure, s.call.priv, []⟩
      else ⟨.success, p, [.acquire (.block malloc), .use (.block malloc)]⟩))
    (hI : I s.call.priv s.frames) (hhanded : I p s.frames) :
    I (b.effect s.call e).priv (b.framesAfter s e) := by
  obtain ⟨ret, -, hids, -⟩ | ⟨-, hids⟩ := checkIds_cases s.call.priv devId layerId
    (if fails then ⟨.failure, s.call.priv, []⟩
    else ⟨.success, p, [.acquire (.block malloc), .use (.block malloc)]⟩)
  · exact inv_of_effect (he.trans hids) hI
  · by_cases hfail : fails
    · rw [if_pos hfail] at hids he
      exact inv_of_effect (he.trans hids) hI
    · rw [if_neg hfail] at hids he
      exact inv_of_effect (he.trans hids) hhanded

theorem stays_of_silent (h : b.writes s.call e = []) : b.StaysInside s e := by
  intro w hw
  rw [h] at hw
  exact absurd hw List.not_mem_nil

end Step

namespace Mapped

open DisplayLayer.Mapped

def backgroundBytes : ℕ := 4 * (960 * 480)

/-- An mmap that does not fail maps the whole background, of a framebuffer that has it; Flush is of a
mapping that is there, of no more bytes than reported. -/
def Fits (reported : ℕ) (s : Painted LayerPrivate) : Event Os → Prop
  | .createLayer devId layerInfo layerId os => ∀ width, layerInfo = some width → layerId = true →
      devId = devID → 0 ≤ os.fd → os.mmap ≠ 0 → os.mmap ≠ mapFailed ∧
        backgroundBytes ≤ (fbSizeOf (pitchOf width) 480).toNat ∧ backgroundBytes ≤ reported
  | .flush devId layerId buffer => devId = devID ∧ layerId = layerID → buffer ≠ none →
      memcpyWrites s.call.priv.fbAddr s.call.priv.fbSize →
        s.frames (.mapping s.call.priv.fbAddr) ≠ none ∧ s.call.priv.fbSize.toNat ≤ reported
  | _ => True

structure Inv (reported : ℕ) (p : LayerPrivate) (frames : Frames) : Prop where
  width : p.width = 960
  height : p.height = 480
  null : frames (.mapping 0) = none
  failed : frames (.mapping mapFailed) = none
  length : ∀ n, frames (.mapping p.fbAddr) = some n → n = min p.fbSize.toNat reported

variable {reported : ℕ} {s : Painted LayerPrivate} {p : LayerPrivate} {frames : Frames}

theorem inv_initial (reported : ℕ) : Inv reported mapped.start (mappedSurface reported).frames := by
  constructor <;> simp [mappedSurface, mapped, layerPriv]

theorem frame_length_iff (hI : Inv reported p frames) {bytes : ℕ} (hbytes : bytes ≤ p.fbSize.toNat) :
    (∃ n, frames (.mapping p.fbAddr) = some n ∧ bytes ≤ n) ↔
      frames (.mapping p.fbAddr) ≠ none ∧ bytes ≤ reported := by
  constructor
  · rintro ⟨n, hn, hle⟩
    rw [hI.length n hn] at hle
    exact ⟨by simp [hn], hle.trans (min_le_right _ _)⟩
  · rintro ⟨hsome, hle⟩
    obtain ⟨n, hn⟩ := Option.ne_none_iff_exists'.mp hsome
    refine ⟨n, hn, ?_⟩
    rw [hI.length n hn]
    exact le_min hbytes hle

structure Spec (reported : ℕ) (s : Painted LayerPrivate) (e : Event Os) : Prop where
  iff : (mappedSurface reported).StaysInside s e ↔ Fits reported s e
  inv : Inv reported (mapped.effect s.call e).priv ((mappedSurface reported).framesAfter s e)

theorem Inv.fewer {frames' : Frames} (hI : Inv reported p frames)
    (h : ∀ r, frames' r = frames r ∨ frames' r = none) : Inv reported p frames' := by
  refine ⟨hI.width, hI.height, ?_, ?_, fun n hn => ?_⟩
  · exact (h _).elim (·.trans hI.null) id
  · exact (h _).elim (·.trans hI.failed) id
  · rcases h (.mapping p.fbAddr) with hsame | hgone
    · exact hI.length n (hsame.symm.trans hn)
    · exact absurd (hn.symm.trans hgone) (Option.some_ne_none n)

section Create

variable {devId : ℕ} {layerInfo : Option Int32} {layerId : Bool} {os : Os}

/-- A CreateLayer that fails paints nothing, and keeps the record but for a pointer it clears. -/
theorem create_fails {ret : DispErrCode} {ops : List (Op Resource)} (hret : ret ≠ .success)
    (he : mapped.effect s.call (.createLayer devId layerInfo layerId os) = ⟨ret, p, ops⟩)
    (hfails : ∀ width, layerInfo = some width → layerId = true → devId = devID →
      os.fd < 0 ∨ os.mmap = 0)
    (hinv : Inv reported p (framesAfter (min p.fbSize.toNat reported) s.frames ops)) :
    Spec reported s (.createLayer devId layerInfo layerId os) := by
  have he' : (mappedSurface reported).effect s.call (.createLayer devId layerInfo layerId os)
      = ⟨ret, p, ops⟩ := he
  constructor
  · refine iff_of_true ((create_stays_iff he').mpr fun h => absurd h hret) ?_
    intro width hinfo hid hdev hfd hmmap
    rcases hfails width hinfo hid hdev with h | h
    · exact absurd hfd (not_le.mpr h)
    · exact absurd h hmmap
  · exact inv_of_effect (b := mappedSurface reported) he hinv

/-- The operations of a CreateLayer that has something to paint. -/
def openOps (os : Os) : List (Op Resource) :=
  .acquire (.fd os.fd) :: ((if os.mmap = mapFailed then [] else [.acquire (.mapping os.mmap)])
    ++ [.use (.mapping os.mmap)])

theorem framesAfter_openOps (length : ℕ) (frames : Frames) (os : Os) :
    framesAfter length frames (openOps os) =
      if os.mmap = mapFailed then frames
      else Function.update frames (.mapping os.mmap) (some length) := by
  by_cases h : os.mmap = mapFailed <;> simp [openOps, framesAfter, h]

theorem Inv.mapped (hI : Inv reported s.call.priv s.frames) (hwidth : p.width = 960)
    (hheight : p.height = 480) (hfbAddr : p.fbAddr = os.mmap) (hmmap : os.mmap ≠ 0) :
    Inv reported p (framesAfter (min p.fbSize.toNat reported) s.frames (openOps os)) := by
  rw [framesAfter_openOps]
  by_cases hfail : os.mmap = mapFailed
  · rw [if_pos hfail]
    refine ⟨hwidth, hheight, hI.null, hI.failed, fun n hn => ?_⟩
    rw [hfbAddr, hfail, hI.failed] at hn
    cases hn
  · rw [if_neg hfail]
    have hother : ∀ a, a ≠ os.mmap → Function.update s.frames (.mapping os.mmap)
        (some (min p.fbSize.toNat reported)) (.mapping a) = s.frames (.mapping a) := by
      intro a ha
      exact Function.update_of_ne (by simpa using ha) _ _
    refine ⟨hwidth, hheight, ?_, ?_, fun n hn => ?_⟩
    · rw [hother 0 hmmap.symm, hI.null]
    · rw [hother mapFailed fun h => hfail h.symm, hI.failed]
    · rw [hfbAddr, Function.update_self] at hn
      exact (Option.some.inj hn).symm

/-- CreateLayer stays inside when what it has mapped, and what is reported, holds the background. -/
theorem create_paints (hI : Inv reported s.call.priv s.frames) {width : Int32}
    (hinfo : layerInfo = some width) (hid : layerId = true) (hdev : devId = devID) (hfd : 0 ≤ os.fd)
    (hmmap : os.mmap ≠ 0) (hwidth : p.width = 960) (hheight : p.height = 480)
    (hfbAddr : p.fbAddr = os.mmap) (hfbSize : p.fbSize = fbSizeOf (pitchOf width) 480)
    (he : mapped.effect s.call (.createLayer devId layerInfo layerId os) = ⟨.success, p, openOps os⟩) :
    Spec reported s (.createLayer devId layerInfo layerId os) := by
  have he' : (mappedSurface reported).effect s.call (.createLayer devId layerInfo layerId os)
      = ⟨.success, p, openOps os⟩ := he
  have hfits : Fits reported s (.createLayer devId layerInfo layerId os) ↔ os.mmap ≠ mapFailed ∧
      backgroundBytes ≤ p.fbSize.toNat ∧ backgroundBytes ≤ reported := by
    rw [hfbSize]
    constructor
    · intro h
      exact h width hinfo hid hdev hfd hmmap
    · rintro h width' hinfo' - - - -
      obtain rfl := Option.some.inj (hinfo.symm.trans hinfo')
      exact h
  have hinv := hI.mapped hwidth hheight hfbAddr hmmap
  constructor
  · have hbytes : 4 * (p.width.toNat * p.height.toNat) = backgroundBytes := by
      rw [hwidth, hheight]
      decide
    have hloops := @setBackground_inside_iff
      (framesAfter (min p.fbSize.toNat reported) s.frames (openOps os)) .mapping p
      (by rw [hwidth]; decide) (by rw [hheight]; decide) (by rw [hwidth, hheight]; decide)
    rw [hfits, create_stays_iff he']
    refine (forall_prop_of_true rfl).trans (hloops.trans ?_)
    rw [hbytes, hfbAddr, framesAfter_openOps]
    by_cases hfail : os.mmap = mapFailed
    · rw [if_pos hfail, hfail, hI.failed]
      simp
    · rw [if_neg hfail, Function.update_self]
      simp [hfail]
  · exact inv_of_effect (b := mappedSurface reported) he hinv

theorem create_spec (hI : Inv reported s.call.priv s.frames) :
    Spec reported s (.createLayer devId layerInfo layerId os) := by
  obtain ⟨ret, hret, he, hnot⟩ | ⟨-, ⟨hinfo, hid, hdev⟩, -⟩ :=
    checkCreate_cases s.call.priv devId layerInfo layerId (openLayer s.call.priv os)
  · refine create_fails hret he (fun width hinfo hid hdev => absurd ?_ hnot) hI
    exact ⟨by simp [hinfo], hid, hdev⟩
  · obtain ⟨width, rfl⟩ := Option.ne_none_iff_exists'.mp hinfo
    have he : mapped.effect s.call (.createLayer devId (some width) layerId os)
        = openLayer s.call.priv os width := by
      rw [hid]
      exact if_neg (not_not.mpr hdev)
    unfold openLayer at he
    by_cases hfd : os.fd < 0
    · rw [if_pos hfd] at he
      refine create_fails (by decide) he (fun _ _ _ _ => Or.inl hfd) ?_
      exact ⟨hI.width, hI.height, hI.null, hI.failed, hI.length⟩
    · rw [if_neg hfd] at he
      by_cases hmmap : os.mmap = 0
      · rw [if_pos hmmap] at he
        refine create_fails (by decide) he (fun _ _ _ _ => Or.inr hmmap) ?_
        have hgone := hI.fewer (update_fewer (.fd os.fd) s.frames)
        refine ⟨hI.width, hI.height, hgone.null, hgone.failed, fun n hn => ?_⟩
        exact absurd (hn.symm.trans hgone.null) (Option.some_ne_none n)
      · rw [if_neg hmmap] at he
        refine create_paints hI rfl hid hdev (not_lt.mp hfd) hmmap ?_ ?_ rfl ?_ he
        · exact hI.width
        · exact hI.height
        · exact congrArg (fbSizeOf (pitchOf width)) hI.height

end Create

section Layer

variable {devId layerId : ℕ}

theorem close_spec (hI : Inv reported s.call.priv s.frames) :
    Spec reported s (.closeLayer devId layerId) := by
  refine ⟨iff_of_true (stays_of_silent rfl) trivial, ?_⟩
  obtain ⟨ret, hret, he, -⟩ | ⟨-, he⟩ := checkIds_cases s.call.priv devId layerId
    ⟨.success, { s.call.priv with fd := -1, layerAddr := 0 },
      releaseIf (0 ≤ s.call.priv.fd) (.fd s.call.priv.fd)
        ++ releaseIf (s.call.priv.layerAddr ≠ 0) (.block s.call.priv.layerAddr)
        ++ releaseIf (s.call.priv.fbAddr ≠ 0) (.mapping s.call.priv.fbAddr)⟩
  · exact inv_of_effect (b := mappedSurface reported) he hI
  · have hclosed : Inv reported { s.call.priv with fd := -1, layerAddr := 0 } s.frames :=
      ⟨hI.width, hI.height, hI.null, hI.failed, hI.length⟩
    refine inv_of_effect (b := mappedSurface reported) he (hclosed.fewer (framesAfter_fewer fun op hop => ?_))
    simp only [releaseIf] at hop
    grind

theorem flush_spec (hI : Inv reported s.call.priv s.frames) (buffer : Option Addr) :
    Spec reported s (.flush devId layerId buffer) := by
  have hafter : ((mappedSurface reported).effect s.call (.flush devId layerId buffer)).priv
      = s.call.priv ∧ (mappedSurface reported).framesAfter s (.flush devId layerId buffer)
      = s.frames := framesAfter_flush rfl
  constructor
  · rw [Surface.StaysInside, hafter.2]
    refine flushWrites_inside_iff.trans ?_
    exact forall_congr' fun _ => forall_congr' fun _ => forall_congr' fun _ =>
      frame_length_iff hI le_rfl
  · rw [hafter.2]
    exact hafter.1.symm ▸ hI

theorem getLayerBuffer_spec (hI : Inv reported s.call.priv s.frames) (buffer : Bool) (malloc : Addr) :
    Spec reported s (.getLayerBuffer devId layerId buffer malloc) := by
  refine ⟨iff_of_true (stays_of_silent rfl) trivial, ?_⟩
  have hhanded : Inv reported { s.call.priv with layerAddr := malloc } s.frames :=
    ⟨hI.width, hI.height, hI.null, hI.failed, hI.length⟩
  cases buffer with
  | false => exact hI
  | true => exact inv_of_handOut (b := mappedSurface reported) rfl hI hhanded

theorem spec (hI : Inv reported s.call.priv s.frames) (e : Event Os) : Spec reported s e := by
  cases e with
  | createLayer devId layerInfo layerId os => exact create_spec hI
  | closeLayer devId layerId => exact close_spec hI
  | flush devId layerId buffer => exact flush_spec hI buffer
  | getLayerBuffer devId layerId buffer malloc => exact getLayerBuffer_spec hI buffer malloc

end Layer

end Mapped

namespace Gpu

open DisplayLayer.Gpu

def backgroundBytes : ℕ := 4 * (800 * 480)

/-- The framebuffer is painted while it has not been freed, and when it is as large as the screen; no
more bytes are flushed than reported. -/
def Fits (fb : Addr) (reported : ℕ) (s : Painted LayerPrivateFb) : Event Os → Prop
  | .createLayer devId layerInfo layerId os => layerInfo ≠ none ∧ layerId = true ∧ devId = devID →
      os.fbmem ≠ none → os.ioctl = true → fb ≠ 0 →
        s.frames (.block fb) ≠ none ∧ backgroundBytes ≤ reported
  | .flush devId layerId buffer => devId = devID ∧ layerId = layerID → buffer ≠ none →
      memcpyWrites s.call.priv.fbAddr s.call.priv.fbSize →
        s.frames (.block fb) ≠ none ∧ s.call.priv.fbSize.toNat ≤ reported
  | _ => True

structure Inv (fb : Addr) (reported : ℕ) (p : LayerPrivateFb) (frames : Frames) : Prop where
  width : p.width = 800
  height : p.height = 480
  fbAddr : p.fbAddr = 0 ∨ p.fbAddr = fb
  length : ∀ n, frames (.block fb) = some n → n = reported

variable {fb : Addr} {reported : ℕ} {s : Painted LayerPrivateFb} {p : LayerPrivateFb} {frames : Frames}

theorem inv_initial (fb : Addr) (reported : ℕ) :
    Inv fb reported (gpu fb).start (gpuSurface fb reported).frames := by
  constructor <;> simp +contextual [gpuSurface, gpu, layerPriv]

theorem frame_length_iff (hI : Inv fb reported p frames) {bytes : ℕ} :
    (∃ n, frames (.block fb) = some n ∧ bytes ≤ n) ↔
      frames (.block fb) ≠ none ∧ bytes ≤ reported := by
  constructor
  · rintro ⟨n, hn, hle⟩
    exact ⟨by simp [hn], hI.length n hn ▸ hle⟩
  · rintro ⟨hsome, hle⟩
    obtain ⟨n, hn⟩ := Option.ne_none_iff_exists'.mp hsome
    exact ⟨n, hn, (hI.length n hn).symm ▸ hle⟩

structure Spec (fb : Addr) (reported : ℕ) (s : Painted LayerPrivateFb) (e : Event Os) : Prop where
  iff : (gpuSurface fb reported).StaysInside s e ↔ Fits fb reported s e
  inv : Inv fb reported ((gpu fb).effect s.call e).priv ((gpuSurface fb reported).framesAfter s e)

theorem Inv.fewer {frames' : Frames} (hI : Inv fb reported p frames)
    (h : ∀ r, frames' r = frames r ∨ frames' r = none) : Inv fb reported p frames' := by
  refine ⟨hI.width, hI.height, hI.fbAddr, fun n hn => ?_⟩
  rcases h (.block fb) with hsame | hgone
  · exact hI.length n (hsame.symm.trans hn)
  · exact absurd (hn.symm.trans hgone) (Option.some_ne_none n)

section Create

variable {devId : ℕ} {layerInfo : Option Int32} {layerId : Bool} {os : Os}

theorem create_fails {ret : DispErrCode} {ops : List (Op Resource)} (hret : ret ≠ .success)
    (he : (gpu fb).effect s.call (.createLayer devId layerInfo layerId os) = ⟨ret, p, ops⟩)
    (hfails : layerInfo ≠ none ∧ layerId = true ∧ devId = devID →
      os.fbmem = none ∨ (if os.ioctl then fb else 0) = 0)
    (hinv : Inv fb reported p (framesAfter 0 s.frames ops)) :
    Spec fb reported s (.createLayer devId layerInfo layerId os) := by
  have he' : (gpuSurface fb reported).effect s.call (.createLayer devId layerInfo layerId os)
      = ⟨ret, p, ops⟩ := he
  constructor
  · refine iff_of_true ((create_stays_iff he').mpr fun h => absurd h hret) ?_
    intro hvalid hopen hioctl hfb
    rcases hfails hvalid with h | h
    · exact absurd h hopen
    · rw [if_pos hioctl] at h
      exact absurd h hfb
  · exact inv_of_effect (b := gpuSurface fb reported) he hinv

theorem create_paints (hI : Inv fb reported s.call.priv s.frames)
    (hvalid : layerInfo ≠ none ∧ layerId = true ∧ devId = devID) {fbmem : Addr}
    (hopen : os.fbmem = some fbmem) (hioctl : os.ioctl = true) (hfb : fb ≠ 0) (hwidth : p.width = 800)
    (hheight : p.height = 480) (hfbAddr : p.fbAddr = fb)
    (he : (gpu fb).effect s.call (.createLayer devId layerInfo layerId os)
      = ⟨.success, p, [.acquire (.fbOpen fbmem), .use (.block fb)]⟩) :
    Spec fb reported s (.createLayer devId layerInfo layerId os) := by
  have he' : (gpuSurface fb reported).effect s.call (.createLayer devId layerInfo layerId os)
      = ⟨.success, p, [.acquire (.fbOpen fbmem), .use (.block fb)]⟩ := he
  have hfits : Fits fb reported s (.createLayer devId layerInfo layerId os) ↔
      s.frames (.block fb) ≠ none ∧ backgroundBytes ≤ reported :=
    ⟨fun h => h hvalid (by simp [hopen]) hioctl hfb, fun h _ _ _ _ => h⟩
  constructor
  · have hbytes : 4 * (p.width.toNat * p.height.toNat) = backgroundBytes := by
      rw [hwidth, hheight]
      decide
    have hloops := @setBackground_inside_iff s.frames .block p.toLayerPrivate
      (by rw [hwidth]; decide) (by rw [hheight]; decide) (by rw [hwidth, hheight]; decide)
    rw [hfits, create_stays_iff he']
    refine (forall_prop_of_true rfl).trans (hloops.trans ?_)
    rw [hbytes, hfbAddr]
    exact frame_length_iff hI
  · exact inv_of_effect (b := gpuSurface fb reported) he ⟨hwidth, hheight, Or.inr hfbAddr, hI.length⟩

theorem create_spec (hI : Inv fb reported s.call.priv s.frames) :
    Spec fb reported s (.createLayer devId layerInfo layerId os) := by
  obtain ⟨ret, hret, he, hnot⟩ | ⟨width, hvalid, he⟩ :=
    checkCreate_cases s.call.priv devId layerInfo layerId (openLayer fb s.call.priv os)
  · exact create_fails hret he (fun h => absurd h hnot) hI
  · change (gpu fb).effect s.call (.createLayer devId layerInfo layerId os)
      = openLayer fb s.call.priv os width at he
    unfold openLayer at he
    cases hopen : os.fbmem with
    | none =>
      rw [hopen] at he
      refine create_fails (by decide) he (fun _ => Or.inl hopen) ?_
      exact ⟨hI.width, hI.height, hI.fbAddr, hI.length⟩
    | some fbmem =>
      simp only [hopen] at he
      by_cases hnull : (if os.ioctl then fb else 0) = 0
      · rw [if_pos hnull] at he
        refine create_fails (by decide) he (fun _ => Or.inr hnull) ?_
        have hgone := hI.fewer (update_fewer (.fbOpen fbmem) s.frames)
        exact ⟨hI.width, hI.height, Or.inl rfl, hgone.length⟩
      · have hioctl : os.ioctl = true := by
          by_contra h
          exact hnull (if_neg h)
        rw [if_neg hnull] at he
        rw [if_pos hioctl] at hnull
        simp only [if_pos hioctl] at he
        refine create_paints hI hvalid hopen hioctl hnull ?_ ?_ rfl he
        · exact hI.width
        · exact hI.height

end Create

section Layer

variable {devId layerId : ℕ}

theorem close_spec (hI : Inv fb reported s.call.priv s.frames) :
    Spec fb reported s (.closeLayer devId layerId) := by
  refine ⟨iff_of_true (stays_of_silent rfl) trivial, ?_⟩
  obtain ⟨ret, hret, he, -⟩ | ⟨-, he⟩ := checkIds_cases s.call.priv devId layerId
    ⟨.success, { s.call.priv with fd := -1, layerAddr := 0, fbAddr := 0, fbmem := 0 },
      releaseIf (s.call.priv.fbmem ≠ 0) (.fbOpen s.call.priv.fbmem)
        ++ releaseIf (s.call.priv.layerAddr ≠ 0) (.block s.call.priv.layerAddr)
        ++ releaseIf (s.call.priv.fbAddr ≠ 0) (.block s.call.priv.fbAddr)⟩
  · exact inv_of_effect (b := gpuSurface fb reported) he hI
  · have hclosed : Inv fb reported
        { s.call.priv with fd := -1, layerAddr := 0, fbAddr := 0, fbmem := 0 } s.frames :=
      ⟨hI.width, hI.height, Or.inl rfl, hI.length⟩
    refine inv_of_effect (b := gpuSurface fb reported) he (hclosed.fewer (framesAfter_fewer fun op hop => ?_))
    simp only [releaseIf] at hop
    grind

theorem flush_spec (hI : Inv fb reported s.call.priv s.frames) (buffer : Option Addr) :
    Spec fb reported s (.flush devId layerId buffer) := by
  have hafter : ((gpuSurface fb reported).effect s.call (.flush devId layerId buffer)).priv
      = s.call.priv ∧ (gpuSurface fb reported).framesAfter s (.flush devId layerId buffer)
      = s.frames := framesAfter_flush rfl
  constructor
  · rw [Surface.StaysInside, hafter.2]
    refine flushWrites_inside_iff.trans ?_
    refine forall_congr' fun _ => forall_congr' fun _ => forall_congr' fun hwrites => ?_
    have hfb := hI.fbAddr.resolve_left hwrites.1
    change (∃ n, s.frames (.block s.call.priv.fbAddr) = some n ∧ _) ↔ _
    rw [hfb]
    exact frame_length_iff hI
  · rw [hafter.2]
    exact hafter.1.symm ▸ hI

theorem getLayerBuffer_spec (hI : Inv fb reported s.call.priv s.frames) (buffer : Bool)
    (malloc : Addr) : Spec fb reported s (.getLayerBuffer devId layerId buffer malloc) := by
  refine ⟨iff_of_true (stays_of_silent rfl) trivial, ?_⟩
  have hhanded : Inv fb reported { s.call.priv with layerAddr := malloc } s.frames :=
    ⟨hI.width, hI.height, hI.fbAddr, hI.length⟩
  cases buffer with
  | false => exact hI
  | true => exact inv_of_handOut (b := gpuSurface fb reported) rfl hI hhanded

theorem spec (hI : Inv fb reported s.call.priv s.frames) (e : Event Os) : Spec fb reported s e := by
  cases e with
  | createLayer devId layerInfo layerId os => exact create_spec hI
  | closeLayer devId layerId => exact close_spec hI
  | flush devId layerId buffer => exact flush_spec hI buffer
  | getLayerBuffer devId layerId buffer malloc => exact getLayerBuffer_spec hI buffer malloc

end Layer

end Gpu

/-- The runs on which every byte written is inside the framebuffer. -/
theorem painting_iff (reported : ℕ) (es : List (Event Mapped.Os)) (fb : Addr)
    (es' : List (Event Gpu.Os)) :
    (StepsMeet (mappedSurface reported).system (mappedSurface reported).StaysInside
        (mappedSurface reported).initial es ↔
      StepsMeet (mappedSurface reported).system (Mapped.Fits reported)
        (mappedSurface reported).initial es) ∧
    (StepsMeet (gpuSurface fb reported).system (gpuSurface fb reported).StaysInside
        (gpuSurface fb reported).initial es' ↔
      StepsMeet (gpuSurface fb reported).system (Gpu.Fits fb reported)
        (gpuSurface fb reported).initial es') := by
  constructor
  · apply stepsMeet_iff (I := fun s => Mapped.Inv reported s.call.priv s.frames)
    · intro s e t hI _ ht
      obtain ⟨-, rfl⟩ := step_cases ht
      exact (Mapped.spec hI e).inv
    · exact fun s e t hI _ => (Mapped.spec hI e).iff
    · exact Mapped.inv_initial reported
  · apply stepsMeet_iff (I := fun s => Gpu.Inv fb reported s.call.priv s.frames)
    · intro s e t hI _ ht
      obtain ⟨-, rfl⟩ := step_cases ht
      exact (Gpu.spec hI e).inv
    · exact fun s e t hI _ => (Gpu.spec hI e).iff
    · exact Gpu.inv_initial fb reported

/-- A framebuffer of exactly the screen's size, and a LayerInfo one pixel wide: one page is mapped. -/
theorem narrow_layer_outside : ¬ StepsMeet (mappedSurface Mapped.backgroundBytes).system
    (mappedSurface Mapped.backgroundBytes).StaysInside (mappedSurface Mapped.backgroundBytes).initial
    [.createLayer 0 (some 1) true ⟨3, 0x1000⟩] := by
  intro h
  obtain ⟨hstays, -⟩ := h _ (next_eq (by decide))
  have hfits := (Mapped.spec (Mapped.inv_initial _) _).iff.mp hstays
  have hsmall := (hfits 1 rfl rfl rfl (by decide) (by decide)).2.1
  exact absurd hsmall (by decide)

end DisplayLayerPainting
