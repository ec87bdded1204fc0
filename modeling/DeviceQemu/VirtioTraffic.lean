import DeviceQemu.DmaLifetime
import DeviceQemu.SyncRequestCompletion
import DeviceQemu.VirtgpuChains
import DeviceQemu.VirtnetTxPartition

/-! What the virtnet, virtblk and virtgpu devices reach while they run.
The chains a device has been given and not used yet lead into the block of the driver or to
buffers that it holds: outgoing NetBufs, the buffer of the caller in VirtblkIO, and what the
running request of virtgpu has on the stack. -/
namespace VirtioTraffic

open StepSystem RingWindow Virtmmio DmaLifetime VirtnetTxOwnership

/-- Address and length of what the chain at `head` consists of. -/
def chainSpans (q : Virtq) (head : UInt16) : List (UInt64 × UInt32) :=
  (q.chainOf head).map (span q.desc)

/-- The transmit side; the receive buffers lie in the block of the driver. -/
structure VirtnetRun where
  vnHdr : UInt64
  tx : VirtnetTx.State VirtnetTx.NetBuf VirtnetTx.NetBuf

/-- NetBufs handed to LowLevelOutput more often than they were freed. -/
def VirtnetRun.lent (t : VirtnetRun) (p : VirtnetTx.NetBuf) : Prop :=
  t.tx.freed.count p < t.tx.handed.count p

def virtnet : Traffic VirtnetRun (VirtnetTx.Event VirtnetTx.NetBuf) (UInt64 × UInt32) where
  Fresh t := VirtnetTx.Init 32 t.tx
  next t e := (VirtnetTx.next (VirtnetTx.liteosA t.vnHdr) t.tx e).map fun tx => { t with tx }
  reaches t := (VirtnetTxPartition.pendingHeads t.tx).flatMap (chainSpans t.tx.q)
  Holds t b := b = (t.vnHdr, VirtnetTx.virtnetHdrSize) ∨
    ∃ p, t.lent p ∧ b ∈ (VirtnetTx.liteosA t.vnHdr).segments p
  backed _ := false
  attached _ := false
  settled _ := some true

theorem virtnet_reachable {t : VirtnetRun} (h : Reachable virtnet.system t) :
    Reachable (VirtnetTx.system (VirtnetTx.liteosA t.vnHdr) 32) t.tx := by
  induction h with
  | init h => exact .init h
  | step _ _ ht ih =>
    obtain ⟨tx, htx, rfl⟩ := Option.map_eq_some_iff.mp ht
    exact .step ih trivial htx

theorem virtnet_lawful : virtnet.Lawful := by
  intro t h b hb
  have hpart := VirtnetTxPartition.reachable_partitioned VirtnetTxPartition.powTwo_32
    (show 2 ≤ UInt16.toNat 32 by decide) (virtnet_reachable h)
  obtain ⟨head, hhead, hb⟩ := List.mem_flatMap.mp hb
  have hcarries := hpart.chains head (List.mem_append_right _ hhead)
  rw [chainSpans, hcarries.spans] at hb
  rcases List.mem_cons.mp hb with rfl | hb
  · exact .inl rfl
  · refine .inr ⟨_, ?_, hb⟩
    have hmem := List.mem_map_of_mem (f := t.tx.bufOf (VirtnetTx.liteosA t.vnHdr)) hhead
    have hpos := List.count_pos_iff.mpr hmem
    have hcount := hpart.handed.count_eq (t.tx.bufOf (VirtnetTx.liteosA t.vnHdr) head)
    rw [hpart.completed] at hcount
    simp only [List.count_append] at hcount
    unfold VirtnetRun.lent
    omega

/-- `req` and `resp` are where these members of the block lie. -/
structure VirtblkRun where
  req : UInt64
  resp : UInt64
  io : SyncRequest.State SyncRequest.BlkIO SyncRequest.Virtblk SyncRequest.BlkView UInt8

/-- The chain of the request in service and those of the published ones not fetched yet. -/
def VirtblkRun.reaches (t : VirtblkRun) : List SyncRequest.Span :=
  (t.io.dev.current.toList.flatMap fun c => c.2.chain) ++
    (t.io.q.availFrom t.io.dev.seen).flatMap
      (SyncRequest.spans t.io.q.desc SyncRequest.virtblkRequestQsz)

/-- What VirtblkIO has published until it returns. -/
def VirtblkRun.lent (t : VirtblkRun) (b : SyncRequest.Span) : Prop :=
  ∃ r, t.io.issued.getLast? = some r ∧ SyncRequestCompletion.unpublished t.io.pc = false ∧
    b ∈ (SyncRequest.virtblkRequest t.req t.resp r).chain

def virtblk : Traffic VirtblkRun (SyncRequest.Event SyncRequest.BlkIO) SyncRequest.Span where
  Fresh t := SyncRequest.Init (SyncRequest.virtblk t.req t.resp) t.io
  next t e := (SyncRequest.next (SyncRequest.virtblk t.req t.resp) t.io e).map
    fun io => { t with io }
  reaches := VirtblkRun.reaches
  Holds := VirtblkRun.lent
  backed _ := false
  attached _ := false
  settled _ := some true

theorem virtblk_inv {t : VirtblkRun} (h : Reachable virtblk.system t) :
    ∃ st, SyncRequestCompletion.Inv (SyncRequest.virtblk t.req t.resp) t.io st := by
  induction h with
  | init h => exact ⟨.quiet, SyncRequestCompletion.init_inv h⟩
  | step _ _ ht ih =>
    obtain ⟨io, hio, rfl⟩ := Option.map_eq_some_iff.mp ht
    obtain ⟨st, hst⟩ := ih
    exact SyncRequestCompletion.next_step hst hio

theorem getLast_asked {ρ ω : Type} {f : ρ → ω} {l : List ω} {w : ω} {rs : List ρ}
    (h : l ++ [w] = rs.map f) : ∃ r, rs.getLast? = some r ∧ f r = w := by
  have hlast : (rs.map f).getLast? = some w := by rw [← h, List.getLast?_concat]
  rw [List.getLast?_map] at hlast
  exact Option.map_eq_some_iff.mp hlast

theorem virtblk_lawful : virtblk.Lawful := by
  intro t h b hb
  obtain ⟨st, hst⟩ := virtblk_inv h
  have hpc : st ≠ .quiet → SyncRequestCompletion.unpublished t.io.pc = false := by
    intro hne
    simpa using fun hun => hne (hst.pc.mp hun)
  have hasked := hst.asked
  rcases List.mem_append.mp hb with hb | hb
  · obtain ⟨c, hc, hb⟩ := List.mem_flatMap.mp hb
    have hcur : t.io.dev.current = some c := by simpa using hc
    obtain rfl : st = .serving := hst.current.mp (by rw [hcur]; rfl)
    simp only [SyncRequestCompletion.unanswered, hcur] at hasked
    obtain ⟨r, hr, hreq⟩ := getLast_asked hasked
    refine ⟨r, hr, hpc (by simp), ?_⟩
    have hchain : c.2 = SyncRequest.virtblkRequest t.req t.resp r := hreq.symm
    rw [← hchain]
    exact hb
  · obtain ⟨head, hhead, hb⟩ := List.mem_flatMap.mp hb
    have hqueued : st = .queued := by
      by_contra hne
      have hseen := hst.seen
      have hzero : st.unfetched = 0 := by
        cases st with
        | queued => exact absurd rfl hne
        | quiet | serving | used | signalled => rfl
      rw [hzero, UInt16.add_zero] at hseen
      simp [Virtq.availFrom, hseen] at hhead
    subst hqueued
    have hhead0 : head = 0 := by
      rw [Virtq.availFrom, hst.seen, SyncRequestCompletion.Stage.unfetched,
        window_bump (by simp), window_self] at hhead
      rw [List.nil_append, List.mem_singleton] at hhead
      rw [hhead]
      exact hst.head rfl
    simp only [SyncRequestCompletion.unanswered] at hasked
    obtain ⟨r, hr, hreq⟩ := getLast_asked hasked
    refine ⟨r, hr, hpc (by simp), ?_⟩
    have hchain : (SyncRequest.virtblkRequest t.req t.resp r).chain =
        SyncRequest.spans t.io.q.desc SyncRequest.virtblkRequestQsz 0 :=
      congrArg SyncRequest.BlkView.chain hreq
    rw [hchain, ← hhead0]
    exact hb

/-- The request, the backing entry of CMDResourceAttachBacking and the response, which are
locals of the function that sends the command. -/
def cmdSpans (m : Virtgpu.Memory) : Virtgpu.Cmd → List (UInt64 × UInt32)
  | .resourceAttachBacking =>
    [(m.req .resourceAttachBacking, Virtgpu.Cmd.reqSize .resourceAttachBacking), (m.data, 16),
      (m.resp .resourceAttachBacking, Virtgpu.Cmd.respSize .resourceAttachBacking)]
  | c => [(m.req c, c.reqSize), (m.resp c, c.respSize)]

/-- The members of the block that NormOpsRefresh publishes. -/
def normSpans (m : Virtgpu.Memory) : List (UInt64 × UInt32) :=
  [(m.transReq, Virtgpu.Norm.reqSize .trans), (m.flushReq, Virtgpu.Norm.reqSize .flush),
    (m.normResp, 24)]

def frame : Virtgpu.Pc → Option Virtgpu.Cmd
  | .request c _ | .post c _ | .bump c _ | .notify c _ | .wait c _ => some c
  | _ => none

/-- `fbAlloc`, `fbRegister` and `timerStart` are how the steps of HdfVirtgpuInit between the
commands end. `fb` tells that the frame buffer is allocated and `attached` that
CMDResourceAttachBacking has published its address. -/
structure VirtgpuRun where
  mem : Virtgpu.Memory
  ctl : Virtgpu.State
  cursor : Virtq
  fbAlloc : Bool
  fbRegister : Bool
  timerStart : Bool
  fb : Bool
  attached : Bool

/-- A step of HdfVirtgpuInit has failed, so that it does not go on. -/
def VirtgpuRun.stuck (t : VirtgpuRun) : Bool :=
  match t.ctl.pc with
  | .request .resourceCreate2D _ => !t.fbAlloc
  | .request .transferToHost _ => !t.fbRegister
  | .idle => !t.timerStart
  | _ => false

def VirtgpuRun.settled (t : VirtgpuRun) : Option Bool :=
  if t.stuck then some false
  else
    match t.ctl.pc with
    | .request _ _ | .post _ _ | .bump _ _ | .notify _ _ | .wait _ _ | .populate => none
    | .failed => some false
    | _ => some true

def allocates : Virtgpu.Pc → Bool
  | .request .resourceCreate2D _ => true
  | _ => false

def attaches : Virtgpu.Pc → Bool
  | .bump .resourceAttachBacking _ => true
  | _ => false

def VirtgpuRun.next (t : VirtgpuRun) (e : Virtgpu.Event) : Option VirtgpuRun :=
  let driver := e == .driver
  if t.stuck && (driver || e == .refresh) then none
  else (Virtgpu.next t.mem true t.ctl e).map fun ctl =>
    { t with
      ctl
      fb := t.fb || (driver && allocates t.ctl.pc)
      attached := t.attached || (driver && attaches t.ctl.pc) }

def virtgpu : Traffic VirtgpuRun Virtgpu.Event (UInt64 × UInt32) where
  Fresh t := (∃ edid, Virtgpu.Init edid t.ctl) ∧ t.cursor.avail.index = 0
  next := VirtgpuRun.next
  reaches t := (VirtgpuChains.outstanding t.ctl.q).flatMap (chainSpans t.ctl.q) ++
    (t.cursor.availFrom 0).flatMap (chainSpans t.cursor)
  Holds t b := b ∈ normSpans t.mem ∨ ∃ c, frame t.ctl.pc = some c ∧ b ∈ cmdSpans t.mem c
  backed := VirtgpuRun.fb
  attached := VirtgpuRun.attached
  settled := VirtgpuRun.settled

/-- PopulateVirtQ has tied the descriptors into pairs that answer into the block. -/
structure Tied (m : Virtgpu.Memory) (desc : UInt16 → VirtqDesc) : Prop where
  paired : VirtgpuChains.Paired desc
  resp0 : span desc 1 = (m.normResp, 24)
  resp2 : span desc 3 = (m.normResp, 24)

/-- The pair at `head` carries a command of NormOpsRefresh. -/
def Filled (m : Virtgpu.Memory) (desc : UInt16 → VirtqDesc) (head : UInt16) : Prop :=
  (head = 0 ∨ head = 2) ∧ (span desc head = (m.transReq, 56) ∨ span desc head = (m.flushReq, 48))

structure Refreshing (m : Virtgpu.Memory) (q : Virtq) : Prop where
  tied : Tied m q.desc
  even : q.last.toNat % 2 = 0
  filled : ∀ head ∈ VirtgpuChains.outstanding q, Filled m q.desc head

def Asked (m : Virtgpu.Memory) (q : Virtq) (c : Virtgpu.Cmd) : Prop :=
  chainSpans q 0 = cmdSpans m c

def Quiet (q : Virtq) : Prop := q.avail.index = q.last ∧ q.used.index = q.last

def CtlOk (m : Virtgpu.Memory) (q : Virtq) : Virtgpu.Pc → Prop
  | .request _ _ => Quiet q
  | .post c _ => Quiet q ∧ Asked m q c
  | .bump c _ => Quiet q ∧ Asked m q c ∧
      q.avail.ring (slot Virtgpu.virtqControlQsz q.avail.index) = 0
  | .notify c _ | .wait c _ => Asked m q c ∧ q.avail.index = q.last + 1 ∧
      (q.used.index = q.last ∨ q.used.index = q.avail.index) ∧
      ∀ head ∈ VirtgpuChains.outstanding q, head = 0
  | .populate | .failed => q.used.index = q.avail.index
  | .idle | .test _ _ | .normNotify _ | .returned _ => Refreshing m q
  | .fill _ head _ => Refreshing m q ∧ (head = 0 ∨ head = 2)
  | .normPost _ head _ => Refreshing m q ∧ Filled m q.desc head
  | .normBump _ _ => Refreshing m q ∧
      Filled m q.desc (q.avail.ring (slot Virtgpu.virtqControlQsz q.avail.index))

structure CtlInv (m : Virtgpu.Memory) (s : Virtgpu.State) : Prop where
  size : s.q.qsz = Virtgpu.virtqControlQsz
  ok : CtlOk m s.q s.pc

theorem filled_chain {m : Virtgpu.Memory} {q : Virtq} {head : UInt16} (ht : Tied m q.desc)
    (hs : q.qsz = Virtgpu.virtqControlQsz) (h : Filled m q.desc head) :
    ∀ b ∈ chainSpans q head, b ∈ normSpans m := by
  obtain ⟨hc0, hc2⟩ := ht.paired.chains hs
  intro b hb
  rcases h with ⟨rfl | rfl, hspan⟩
  · rw [chainSpans, hc0, List.map_cons, List.map_cons, List.map_nil, ht.resp0] at hb
    rcases hspan with hspan | hspan <;> rw [hspan] at hb <;>
      simp only [List.mem_cons, List.not_mem_nil, or_false] at hb <;>
      rcases hb with rfl | rfl <;> simp [normSpans, Virtgpu.Norm.reqSize]
  · rw [chainSpans, hc2, List.map_cons, List.map_cons, List.map_nil, ht.resp2] at hb
    rcases hspan with hspan | hspan <;> rw [hspan] at hb <;>
      simp only [List.mem_cons, List.not_mem_nil, or_false] at hb <;>
      rcases hb with rfl | rfl <;> simp [normSpans, Virtgpu.Norm.reqSize]

/-- What is outstanding leads into the block or into the frame of the running command. -/
theorem CtlInv.holds {m : Virtgpu.Memory} {s : Virtgpu.State} (h : CtlInv m s) {head : UInt16}
    (hhead : head ∈ VirtgpuChains.outstanding s.q) {b : UInt64 × UInt32}
    (hb : b ∈ chainSpans s.q head) :
    b ∈ normSpans m ∨ ∃ c, frame s.pc = some c ∧ b ∈ cmdSpans m c := by
  obtain ⟨hsize, hok⟩ := h
  have hquiet : s.q.used.index = s.q.avail.index → False := by
    intro hq
    simp [VirtgpuChains.outstanding_quiet hq] at hhead
  have hnorm : Refreshing m s.q → b ∈ normSpans m := by
    intro hr
    exact filled_chain hr.tied hsize (hr.filled head hhead) b hb
  cases hpc : s.pc with
  | request c rest =>
    rw [hpc] at hok
    exact (hquiet (hok.2.trans hok.1.symm)).elim
  | post c rest | bump c rest =>
    rw [hpc] at hok
    exact (hquiet (hok.1.2.trans hok.1.1.symm)).elim
  | notify c rest | wait c rest =>
    rw [hpc] at hok
    obtain ⟨hasked, -, -, hzero⟩ := hok
    rw [hzero head hhead, hasked] at hb
    exact .inr ⟨c, rfl, hb⟩
  | populate | failed =>
    rw [hpc] at hok
    exact (hquiet hok).elim
  | idle | test k r | normNotify r | returned r =>
    rw [hpc] at hok
    exact .inl (hnorm hok)
  | fill k head r | normPost k head r | normBump k r =>
    rw [hpc] at hok
    exact .inl (hnorm hok.1)

theorem request_asked (m : Virtgpu.Memory) {q : Virtq} (hs : q.qsz = Virtgpu.virtqControlQsz)
    (c : Virtgpu.Cmd) : Asked m { q with desc := Virtgpu.request m q.desc c } c := by
  have h4 : q.qsz.toNat = 4 := by rw [hs]; rfl
  have hwrite : virtqDescFWrite &&& virtqDescFNext = 0 := by decide
  have hnext : virtqDescFNext ≠ 0 := by decide
  cases c <;> simp [Asked, chainSpans, Virtq.chainOf, h4, LinkedWalk.chain, Virtgpu.request,
    VirtqDesc.hasNext, hwrite, hnext, span, cmdSpans]

theorem Tied.fill {m : Virtgpu.Memory} {desc : UInt16 → VirtqDesc} (h : Tied m desc)
    {head : UInt16} (hhead : head = 0 ∨ head = 2) (pAddr : UInt64) (len : UInt32) :
    Tied m (Function.update desc head { desc head with pAddr, len }) := by
  have hother : ∀ i : UInt16, i ≠ 0 → i ≠ 2 →
      Function.update desc head { desc head with pAddr, len } i = desc i := by
    intro i h0 h2
    refine Function.update_of_ne ?_ _ _
    rcases hhead with rfl | rfl
    · exact h0
    · exact h2
  refine ⟨h.paired.fill head pAddr len, ?_, ?_⟩
  · rw [span, hother 1 (by decide) (by decide)]
    exact h.resp0
  · rw [span, hother 3 (by decide) (by decide)]
    exact h.resp2

/-- Filling a pair leaves the other filled, whether it is outstanding or not. -/
theorem Filled.fill {m : Virtgpu.Memory} {desc : UInt16 → VirtqDesc} {head : UInt16}
    (h : Filled m desc head) (k : Virtgpu.Norm) (i : UInt16) :
    Filled m (Function.update desc i { desc i with pAddr := k.reqAddr m, len := k.reqSize })
      head := by
  refine ⟨h.1, ?_⟩
  by_cases hi : head = i
  · subst hi
    cases k with
    | trans => exact .inl (by simp [span, Virtgpu.Norm.reqAddr, Virtgpu.Norm.reqSize])
    | flush => exact .inr (by simp [span, Virtgpu.Norm.reqAddr, Virtgpu.Norm.reqSize])
  · rw [span, Function.update_of_ne hi]
    exact h.2

theorem filled_self (m : Virtgpu.Memory) (desc : UInt16 → VirtqDesc) (k : Virtgpu.Norm)
    {head : UInt16} (hhead : head = 0 ∨ head = 2) :
    Filled m (Function.update desc head { desc head with pAddr := k.reqAddr m, len := k.reqSize })
      head := by
  refine ⟨hhead, ?_⟩
  cases k with
  | trans => exact .inl (by simp [span, Virtgpu.Norm.reqAddr, Virtgpu.Norm.reqSize])
  | flush => exact .inr (by simp [span, Virtgpu.Norm.reqAddr, Virtgpu.Norm.reqSize])

theorem tied_populateVirtQ (m : Virtgpu.Memory) (q : Virtq) :
    Tied m (Virtgpu.populateVirtQ m q).desc :=
  ⟨VirtgpuChains.paired_populateVirtQ q, by simp [Virtgpu.populateVirtQ, Function.update, span],
    by simp [Virtgpu.populateVirtQ, Function.update, span]⟩

theorem Refreshing.mono {m : Virtgpu.Memory} {q q' : Virtq} (h : Refreshing m q)
    (hdesc : q'.desc = q.desc) (hlast : q'.last = q.last)
    (hsub : ∀ head ∈ VirtgpuChains.outstanding q', head ∈ VirtgpuChains.outstanding q ∨
      Filled m q.desc head) : Refreshing m q' := by
  refine ⟨hdesc ▸ h.tied, hlast ▸ h.even, fun head hhead => ?_⟩
  rw [hdesc]
  rcases hsub head hhead with hold | hnew
  · exact h.filled head hold
  · exact hnew

theorem ctl_driver {m : Virtgpu.Memory} {s t : Virtgpu.State} (h : CtlInv m s)
    (ht : Virtgpu.driverStep m s = some t) : CtlInv m t := by
  obtain ⟨hsize, hok⟩ := h
  cases hpc : s.pc with
  | request c rest =>
    rw [hpc] at hok
    simp only [Virtgpu.driverStep, hpc, Option.some.injEq] at ht
    subst ht
    exact ⟨hsize, hok, request_asked m hsize c⟩
  | post c rest =>
    rw [hpc] at hok
    simp only [Virtgpu.driverStep, hpc, Option.some.injEq] at ht
    subst ht
    refine ⟨hsize, hok.1, hok.2, ?_⟩
    simp [Virtgpu.State.setAvail, hsize]
  | bump c rest =>
    rw [hpc] at hok
    simp only [Virtgpu.driverStep, hpc, Option.some.injEq] at ht
    subst ht
    obtain ⟨⟨ha, hu⟩, hasked, hring⟩ := hok
    refine ⟨hsize, hasked, congrArg (· + 1) ha, .inl hu, fun head hhead => ?_⟩
    have hmem : head ∈
        window s.q.qsz s.q.avail.ring s.q.used.index (s.q.avail.index + 1) := hhead
    rcases mem_window_bump hmem with hold | hnew
    · rw [hu.trans ha.symm, window_self] at hold
      simp at hold
    · rw [hnew, ← hring, ← hsize]
  | notify c rest =>
    rw [hpc] at hok
    simp only [Virtgpu.driverStep, hpc, Option.some.injEq] at ht
    subst ht
    exact ⟨hsize, hok⟩
  | wait c rest =>
    rw [hpc] at hok
    obtain ⟨-, ha, hu, -⟩ := hok
    obtain ⟨hu, rfl⟩ := Virtgpu.wait_cases hpc hu ht
    refine ⟨hsize, ?_⟩
    by_cases hf : (c.required && Virtgpu.respFailed s.resp) = true
    · simp only [hf, if_true]
      exact hu
    · simp only [hf]
      cases rest with
      | nil => exact hu
      | cons c' rest => exact ⟨ha, hu.trans ha⟩
  | populate =>
    rw [hpc] at hok
    simp only [Virtgpu.driverStep, hpc, Option.some.injEq] at ht
    subst ht
    refine ⟨hsize, tied_populateVirtQ m s.q, rfl, fun head hhead => ?_⟩
    have hquiet : VirtgpuChains.outstanding (Virtgpu.populateVirtQ m s.q) = [] :=
      VirtgpuChains.outstanding_quiet (by exact hok)
    simp [hquiet] at hhead
  | failed | idle | returned r => simp [Virtgpu.driverStep, hpc] at ht
  | test k r =>
    rw [hpc] at hok
    simp only [Virtgpu.driverStep, hpc] at ht
    split at ht
    · cases k with
      | trans | flush =>
        obtain rfl := Option.some.inj ht
        exact ⟨hsize, hok⟩
    · obtain rfl := Option.some.inj ht
      refine ⟨hsize, hok, ?_⟩
      rw [hsize]
      rcases VirtgpuChains.slot_turn hok.even with ⟨hc, -⟩ | ⟨hc, -⟩
      · exact .inl hc
      · exact .inr hc
  | fill k head r =>
    rw [hpc] at hok
    simp only [Virtgpu.driverStep, hpc, Option.some.injEq] at ht
    subst ht
    obtain ⟨⟨htied, heven, hfilled⟩, hhead⟩ := hok
    refine ⟨hsize, ⟨htied.fill hhead _ _, ?_, fun i hi => (hfilled i hi).fill k head⟩,
      filled_self m s.q.desc k hhead⟩
    have hlt := s.q.last.toNat_lt
    have htwo : Virtgpu.normalCmdEntries.toNat = 2 := rfl
    simp only [UInt16.toNat_add, htwo]
    omega
  | normPost k head r =>
    rw [hpc] at hok
    simp only [Virtgpu.driverStep, hpc, Option.some.injEq] at ht
    subst ht
    refine ⟨hsize, hok.1.mono rfl rfl fun i hi => ?_, ?_⟩
    · rcases mem_window_update hi with hold | rfl
      · exact .inl hold
      · exact .inr hok.2
    · simpa [Virtgpu.State.setAvail, hsize] using hok.2
  | normBump k r =>
    rw [hpc] at hok
    simp only [Virtgpu.driverStep, hpc, Option.some.injEq] at ht
    subst ht
    have hr : Refreshing m (s.setAvail { s.q.avail with index := s.q.avail.index + 1 }).q := by
      refine hok.1.mono rfl rfl fun i hi => ?_
      rcases mem_window_bump hi with hold | hnew
      · exact .inl hold
      · refine .inr ?_
        rw [hnew]
        have hfilled := hok.2
        rw [← hsize] at hfilled
        exact hfilled
    cases k with
    | trans | flush => exact ⟨hsize, hr⟩
  | normNotify r =>
    rw [hpc] at hok
    simp only [Virtgpu.driverStep, hpc, Option.some.injEq] at ht
    subst ht
    exact ⟨hsize, hok⟩

theorem ctl_refresh {m : Virtgpu.Memory} {s t : Virtgpu.State} (h : CtlInv m s)
    (ht : Virtgpu.normOpsRefresh s = some t) : CtlInv m t := by
  obtain ⟨hsize, hok⟩ := h
  cases hpc : s.pc with
  | idle | returned r =>
    rw [hpc] at hok
    simp only [Virtgpu.normOpsRefresh, hpc, Option.some.injEq] at ht
    subst ht
    exact ⟨hsize, hok⟩
  | _ => simp [Virtgpu.normOpsRefresh, hpc] at ht

/-- The device moves on by one entry; the descriptors are not its to write. -/
theorem ctl_consume {m : Virtgpu.Memory} {s t : Virtgpu.State} {b : Virtgpu.CtrlHdr}
    (h : CtlInv m s) (ht : Virtgpu.consume true s b = some t) : CtlInv m t := by
  obtain ⟨hne, head, hout⟩ := VirtgpuChains.consume_tail ht
  have hsub : ∀ i ∈ VirtgpuChains.outstanding t.q, i ∈ VirtgpuChains.outstanding s.q := by
    intro i hi
    rw [hout]
    exact List.mem_cons_of_mem _ hi
  obtain ⟨hsize, hok⟩ := h
  simp only [Virtgpu.consume, if_true] at ht
  rw [if_neg hne] at ht
  have ht := Option.some.inj ht
  have hmono : Refreshing m s.q → Refreshing m t.q := by
    intro hr
    refine hr.mono ?_ ?_ fun i hi => .inl (hsub i hi)
    · rw [← ht]
    · rw [← ht]
  subst ht
  refine ⟨hsize, ?_⟩
  cases hpc : s.pc with
  | request c rest =>
    rw [hpc] at hok
    exact absurd (hok.2.trans hok.1.symm) hne
  | post c rest | bump c rest =>
    rw [hpc] at hok
    exact absurd (hok.1.2.trans hok.1.1.symm) hne
  | notify c rest | wait c rest =>
    rw [hpc] at hok
    obtain ⟨hasked, ha, hu, hzero⟩ := hok
    have hu := hu.resolve_right hne
    exact ⟨hasked, ha, .inr (by simp [hu, ha]), fun i hi => hzero i (hsub i hi)⟩
  | populate | failed =>
    rw [hpc] at hok
    exact absurd hok hne
  | idle | test k r | normNotify r | returned r =>
    rw [hpc] at hok
    exact hmono hok
  | fill k i r | normPost k i r | normBump k r =>
    rw [hpc] at hok
    exact ⟨hmono hok.1, hok.2⟩

theorem ctl_init {m : Virtgpu.Memory} {edid : Bool} {s : Virtgpu.State}
    (h : Virtgpu.Init edid s) : CtlInv m s := by
  refine ⟨h.size, ?_⟩
  rw [h.pc]
  exact ⟨h.availIndex.trans h.last.symm, h.usedIndex.trans h.last.symm⟩

theorem virtgpu_inv {t : VirtgpuRun} (h : Reachable virtgpu.system t) :
    CtlInv t.mem t.ctl ∧ t.cursor.avail.index = 0 := by
  induction h with
  | init h =>
    obtain ⟨⟨edid, hinit⟩, hcursor⟩ := h
    exact ⟨ctl_init hinit, hcursor⟩
  | @step s e t _ _ ht ih =>
    simp only [Traffic.system, virtgpu, VirtgpuRun.next] at ht
    obtain ⟨-, ht⟩ := Option.ite_none_left_eq_some.mp ht
    obtain ⟨ctl, hctl, rfl⟩ := Option.map_eq_some_iff.mp ht
    refine ⟨?_, ih.2⟩
    cases e with
    | driver => exact ctl_driver ih.1 hctl
    | refresh => exact ctl_refresh ih.1 hctl
    | consume b => exact ctl_consume ih.1 hctl

theorem virtgpu_lawful : virtgpu.Lawful := by
  intro t h b hb
  obtain ⟨hctl, hcursor⟩ := virtgpu_inv h
  rcases List.mem_append.mp hb with hb | hb
  · obtain ⟨head, hhead, hb⟩ := List.mem_flatMap.mp hb
    exact hctl.holds hhead hb
  · rw [Virtq.availFrom, hcursor, window_self] at hb
    simp at hb

end VirtioTraffic
