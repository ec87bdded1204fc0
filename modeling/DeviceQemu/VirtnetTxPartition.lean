import DeviceQemu.VirtnetTxSteps

/-! The transmit descriptors are partitioned and every buffer is freed once.
The ownership invariant is read back as facts about the queue memory itself: the free walk,
the chain the sender holds, and the chains the device would read from the outstanding heads. -/
namespace VirtnetTxPartition

open StepSystem RingWindow LinkedWalk Virtmmio VirtnetTx VirtnetTxOwnership VirtnetTxSteps

variable {β ρ : Type} {d : Driver β ρ} {qsz : UInt16}

def freeList (s : State β ρ) : List UInt16 :=
  walk (link s.q.desc) s.tFreeHdr s.tFreeNum.toNat

/-- The descriptors GetTxFreeEntry has cut for the running LowLevelOutput. -/
def heldList (d : Driver β ρ) (s : State β ρ) : List UInt16 :=
  match s.sender with
  | .idle | .notify | .lock _ | .take _ | .yield _ => []
  | .unlock p head _ | .clearTail p head _ | .fill p head | .record p head _ _ | .ring p head
  | .publish p head => walk (link s.q.desc) head (d.entries p).toNat

/-- The head FreeTxEntry is working on, until its chain is back on the free list. -/
def freeingHead : HandlerPc β ρ → List UInt16
  | .lookup head | .lock head _ _ | .splice head _ _ => [head]
  | _ => []

/-- Heads of chains the device has used and the driver has not yet given back. -/
def usedHeads (s : State β ρ) : List UInt16 :=
  freeingHead s.handler ++
    (s.q.usedFrom (taken s.q.last s.handler)).map fun e => e.id.toUInt16

/-- Heads of published chains the device has not used yet. -/
def pendingHeads (s : State β ρ) : List UInt16 := s.dev.inFlight ++ s.q.availFrom s.dev.seen

def outstanding (s : State β ρ) : List UInt16 := usedHeads s ++ pendingHeads s

/-- The chain at `head` carries `p`: one descriptor for the header and one for each segment,
linked by NEXT and closed by a descriptor without it. -/
structure Carries (d : Driver β ρ) (q : Virtq) (head : UInt16) (p : β) : Prop where
  closed : Sealed (more q.desc) (link q.desc) head (q.chainOf head)
  length : (q.chainOf head).length = (d.entries p).toNat
  spans : (q.chainOf head).map (span q.desc) = (d.vnHdr, virtnetHdrSize) :: d.segments p

structure Partitioned (d : Driver β ρ) (qsz : UInt16) (s : State β ρ) : Prop where
  parts : (freeList s ++ heldList d s ++ (outstanding s).flatMap s.q.chainOf).Perm (indices qsz)
  total : s.tFreeNum.toNat + (heldList d s).length +
    ((outstanding s).flatMap s.q.chainOf).length = qsz.toNat
  chains : ∀ head ∈ outstanding s, Carries d s.q head (s.bufOf d head)
  publish : ∀ p head, s.sender = .publish p head →
    heldList d s = s.q.chainOf head ∧ Carries d s.q head p ∧ s.bufOf d head = p
  completed : s.completed = s.freed ++ handlerBuf s.handler ++ (usedHeads s).map (s.bufOf d)
  handed : s.handed.Perm
    (s.completed ++ (pendingHeads s).map (s.bufOf d) ++ senderBuf s.sender)

theorem LoanOk.chainOf {q : Virtq} {tbufRec : UInt16 → ρ} {c : Loan β}
    (h : LoanOk d q.desc tbufRec c) (hlen : c.nodes.length ≤ q.qsz.toNat) :
    q.chainOf c.head = c.nodes := h.closed.chain_eq hlen

theorem LoanOk.carries {q : Virtq} {tbufRec : UInt16 → ρ} {c : Loan β}
    (h : LoanOk d q.desc tbufRec c) (hlen : c.nodes.length ≤ q.qsz.toNat) :
    Carries d q c.head c.buf := by
  constructor
  · rw [LoanOk.chainOf h hlen]
    exact h.closed
  · rw [LoanOk.chainOf h hlen, h.length, d.entries_eq]
  · rw [LoanOk.chainOf h hlen]
    exact h.spans

theorem freeList_eq {s : State β ρ} {g : Owners β} (h : Inv d qsz s g) : freeList s = g.free := by
  obtain ⟨y, hp⟩ := h.freePath
  rw [freeList, h.freeNum]
  exact hp.walk_eq

theorem Cut.walk_eq {desc : UInt16 → VirtqDesc} {p : β} {head : UInt16} {held : List UInt16}
    (h : Cut d desc p head held) : walk (link desc) head (d.entries p).toNat = held := by
  obtain ⟨y, hp⟩ := h.path
  rw [d.entries_eq, ← h.length]
  exact hp.walk_eq

theorem heldList_eq {s : State β ρ} {g : Owners β} (h : Inv d qsz s g) : heldList d s = g.held := by
  have hs := h.sender
  cases hpc : s.sender with
  | idle | notify =>
    rw [hpc] at hs
    simpa [heldList, hpc] using hs.symm
  | lock p | take p | yield p =>
    rw [hpc] at hs
    simpa [heldList, hpc] using hs.1.symm
  | unlock p head tail | clearTail p head tail =>
    rw [hpc] at hs
    simpa [heldList, hpc] using Cut.walk_eq hs.cut
  | fill p head | record p head idx tail =>
    rw [hpc] at hs
    first
      | simpa [heldList, hpc] using Cut.walk_eq hs.1
      | simpa [heldList, hpc] using Cut.walk_eq hs.1.cut
  | ring p head =>
    rw [hpc] at hs
    simpa [heldList, hpc] using Cut.walk_eq hs.cut
  | publish p head =>
    rw [hpc] at hs
    simpa [heldList, hpc] using Cut.walk_eq hs.1.cut

theorem freeingHead_eq {q : Virtq} {tbufRec : UInt16 → ρ} {current : List (Loan β)}
    {pc : HandlerPc β ρ} (h : HandlerOk q tbufRec current pc) :
    freeingHead pc = current.map Loan.head := by
  cases pc with
  | lookup head =>
    obtain ⟨c, rfl, rfl⟩ := h
    rfl
  | lock head idx early | splice head idx early =>
    obtain ⟨c, rfl, rfl, -⟩ := h
    rfl
  | read =>
    obtain ⟨rfl, -⟩ := h
    rfl
  | _ =>
    obtain rfl : current = [] := h
    rfl

theorem usedHeads_eq {s : State β ρ} {g : Owners β} (h : Inv d qsz s g) :
    usedHeads s = (g.current ++ g.used).map Loan.head := by
  rw [usedHeads, freeingHead_eq h.handler, h.used, List.map_append]

theorem pendingHeads_eq {s : State β ρ} {g : Owners β} (h : Inv d qsz s g) :
    pendingHeads s = (g.inFlight ++ g.avail).map Loan.head := by
  rw [pendingHeads, h.inFlight, h.avail, List.map_append]

theorem outstanding_eq {s : State β ρ} {g : Owners β} (h : Inv d qsz s g) :
    outstanding s = g.loans.map Loan.head := by
  rw [outstanding, usedHeads_eq h, pendingHeads_eq h]
  simp [Owners.loans]

theorem loan_length {s : State β ρ} {g : Owners β} (h : Inv d qsz s g) {c : Loan β}
    (hc : c ∈ g.loans) : c.nodes.length ≤ s.q.qsz.toNat := by
  have hlen := h.parts.length_eq
  obtain ⟨as, bs, hsplit⟩ := List.append_of_mem hc
  simp only [Owners.all, hsplit, List.flatMap_append, List.flatMap_cons, List.length_append,
    length_indices] at hlen
  rw [h.size]
  omega

theorem held_length {s : State β ρ} {g : Owners β} (h : Inv d qsz s g) :
    g.held.length ≤ s.q.qsz.toNat := by
  have hlen := h.parts.length_eq
  simp only [Owners.all, List.length_append, length_indices] at hlen
  rw [h.size]
  omega

theorem bufs_eq {s : State β ρ} {g : Owners β} (h : Inv d qsz s g) {l : List (Loan β)}
    (hl : ∀ c ∈ l, c ∈ g.loans) : (l.map Loan.head).map (s.bufOf d) = l.map Loan.buf := by
  rw [List.map_map]
  exact List.map_congr_left fun c hc => (h.loans c (hl c hc)).bufOf

theorem Inv.partitioned {s : State β ρ} {g : Owners β} (h : Inv d qsz s g) :
    Partitioned d qsz s := by
  have hnodes : (outstanding s).flatMap s.q.chainOf = g.loans.flatMap Loan.nodes := by
    rw [outstanding_eq h, List.flatMap_map]
    exact List.flatMap_congr fun c hc => LoanOk.chainOf (h.loans c hc) (loan_length h hc)
  constructor
  · rw [freeList_eq h, heldList_eq h, hnodes]
    exact h.parts
  · have hlen := h.parts.length_eq
    simp only [Owners.all, List.length_append, length_indices] at hlen
    rw [heldList_eq h, hnodes, h.freeNum]
    exact hlen
  · intro head hhead
    rw [outstanding_eq h] at hhead
    obtain ⟨c, hc, rfl⟩ := List.mem_map.mp hhead
    rw [(h.loans c hc).bufOf]
    exact LoanOk.carries (h.loans c hc) (loan_length h hc)
  · intro p head hpc
    have hs := h.sender
    rw [hpc] at hs
    have hlen := held_length h
    exact ⟨(heldList_eq h).trans (LoanOk.chainOf hs.1 hlen).symm, LoanOk.carries hs.1 hlen,
      hs.1.bufOf⟩
  · rw [usedHeads_eq h, bufs_eq h]
    · exact h.completed
    · intro c hc
      rw [Owners.loans, List.append_assoc]
      exact List.mem_append_left _ hc
  · rw [pendingHeads_eq h, bufs_eq h]
    · exact h.handed
    · intro c hc
      rw [Owners.loans, List.append_assoc]
      exact List.mem_append_right _ hc

theorem Partitioned.nodup {s : State β ρ} (h : Partitioned d qsz s) :
    (freeList s ++ heldList d s ++ (outstanding s).flatMap s.q.chainOf).Nodup :=
  h.parts.nodup_iff.mpr (nodup_indices qsz)

/-- Nothing in progress and nothing outstanding: every accepted buffer has been freed. -/
theorem Partitioned.settled {s : State β ρ} (h : Partitioned d qsz s) (ho : outstanding s = [])
    (hh : handlerBuf s.handler = []) (hs : senderBuf s.sender = []) : s.freed.Perm s.handed := by
  obtain ⟨hu, hp⟩ := List.append_eq_nil_iff.mp ho
  have hhanded := h.handed
  have hcompleted := h.completed
  simp only [hu, hp, hh, hs, List.map_nil, List.append_nil] at hhanded hcompleted
  rw [← hcompleted]
  exact hhanded.symm

theorem reachable_partitioned (hp : PowTwo qsz) (hq : d.minRing ≤ qsz.toNat) {s : State β ρ}
    (h : Reachable (system d qsz) s) : Partitioned d qsz s := by
  obtain ⟨g, hI⟩ := reachable_invariant hp hq h
  exact Inv.partitioned hI

theorem take_splits (hp : PowTwo qsz) (hq : d.minRing ≤ qsz.toNat) {s t : State β ρ}
    (h : Reachable (system d qsz) s) {p : β} (hpc : s.sender = .take p)
    (ht : next d s .sender = some t) :
    (t.sender = .yield p ∧ freeList t = freeList s) ∨
      (freeList s = heldList d t ++ freeList t ∧
        (heldList d t).length = (d.entries p).toNat) := by
  obtain ⟨g, hI⟩ := reachable_invariant hp hq h
  simp only [next, senderStep, hpc] at ht
  split at ht
  · obtain rfl := Option.some.inj ht
    exact Or.inl ⟨rfl, rfl⟩
  next hle =>
    obtain rfl := Option.some.inj ht
    obtain ⟨xs, ys, hfree, hI'⟩ := hI.take hpc hle
    refine Or.inr ⟨?_, ?_⟩
    · rw [freeList_eq hI, heldList_eq hI', freeList_eq hI', hfree]
    · simp [heldList]

theorem splice_returns (hp : PowTwo qsz) (hq : d.minRing ≤ qsz.toNat) {s t : State β ρ}
    (h : Reachable (system d qsz) s) {head idx : UInt16} {early : Option ρ}
    (hpc : s.handler = .splice head idx early) (ht : next d s .handler = some t) :
    freeList t = s.q.chainOf head ++ freeList s ∧ t.handler = .unlock (s.bufOf d head) := by
  obtain ⟨g, hI⟩ := reachable_invariant hp hq h
  simp only [next, handlerStep, hpc] at ht
  obtain rfl := Option.some.inj ht
  obtain ⟨c, hcur, hI'⟩ := splice_step hI hpc
  have hc : c ∈ g.loans := by simp [Owners.loans, hcur]
  have hh := hI.handler
  rw [hpc] at hh
  obtain ⟨c', hc', rfl, rfl, hearly⟩ := hh
  obtain rfl : c = c' := by simpa [hcur] using hc'
  constructor
  · rw [freeList_eq hI', freeList_eq hI, LoanOk.chainOf (hI.loans c hc) (loan_length hI hc)]
  · rw [hearly]
    rfl

/-- What GetTxFreeEntry returns is a closed chain of the length that was asked for. -/
theorem prepared_chain (hp : PowTwo qsz) (hq : d.minRing ≤ qsz.toNat) {s : State β ρ}
    (h : Reachable (system d qsz) s) {p : β} {head : UInt16} (hpc : s.sender = .fill p head) :
    Sealed (more s.q.desc) (link s.q.desc) head (heldList d s) ∧
      (heldList d s).length = (d.entries p).toNat := by
  obtain ⟨g, hI⟩ := reachable_invariant hp hq h
  have hs := hI.sender
  rw [hpc] at hs
  rw [heldList_eq hI]
  exact ⟨hs.2, by rw [hs.1.length, d.entries_eq]⟩

theorem Sealed.pair {more : UInt16 → Bool} {next : UInt16 → UInt16} {head : UInt16}
    {xs : List UInt16} (h : Sealed more next head xs) (hl : xs.length = 2) :
    xs = [head, next head] ∧ more head = true ∧ more (next head) = false := by
  obtain ⟨ne, ⟨y, hp⟩, hi, hlast⟩ := h
  match xs, hl, hp with
  | [a, b], _, ⟨ha, hb, _⟩ =>
    subst ha hb
    exact ⟨rfl, hi _ (by simp), by simpa using hlast⟩

/-- The chain LowLevelOutput of LiteOS-A builds for `p`: NEXT on the first descriptor only. -/
structure PairAt (q : Virtq) (vnHdr : UInt64) (head : UInt16) (p : NetBuf) : Prop where
  chain : q.chainOf head = [head, (q.desc head).next]
  first : (q.desc head).hasNext = true
  second : (q.desc (q.desc head).next).hasNext = false
  header : span q.desc head = (vnHdr, virtnetHdrSize)
  data : span q.desc (q.desc head).next = (p.data, p.len)

theorem Carries.pairAt {vnHdr : UInt64} {q : Virtq} {head : UInt16} {p : NetBuf}
    (h : Carries (liteosA vnHdr) q head p) : PairAt q vnHdr head p := by
  obtain ⟨hchain, hfirst, hsecond⟩ := Sealed.pair h.closed h.length
  have hspans := h.spans
  rw [hchain] at hspans
  obtain ⟨hheader, hdata⟩ := List.cons.inj hspans
  exact ⟨hchain, hfirst, hsecond, hheader, (List.cons.inj hdata).1⟩

theorem liteosA_tx_ownership {vnHdr : UInt64} {qsz : UInt16} (hp : PowTwo qsz)
    (hq : 4 ≤ qsz.toNat) {s : State NetBuf NetBuf}
    (h : Reachable (system (liteosA vnHdr) qsz) s) :
    Partitioned (liteosA vnHdr) qsz s ∧
      (freeList s ++ heldList (liteosA vnHdr) s ++
        (outstanding s).flatMap s.q.chainOf).Nodup ∧
      (∀ head ∈ outstanding s, PairAt s.q vnHdr head (s.bufOf (liteosA vnHdr) head)) ∧
      (∀ p head, s.sender = .publish p head → PairAt s.q vnHdr head p) ∧
      (outstanding s = [] → handlerBuf s.handler = [] → senderBuf s.sender = [] →
        s.freed.Perm s.handed) := by
  have hpart := reachable_partitioned hp (le_trans (by decide : 2 ≤ 4) hq) h
  refine ⟨hpart, hpart.nodup, ?_, ?_, hpart.settled⟩
  · intro head hhead
    exact Carries.pairAt (hpart.chains head hhead)
  · intro p head hpc
    exact Carries.pairAt (hpart.publish p head hpc).2.1

/-- One packet from LowLevelOutput to the return of its descriptors. -/
def sendOne {β : Type} (p : β) : List (Event β) :=
  Event.output p :: List.replicate 9 Event.sender ++ [Event.fetch, .complete 0, .raise, .enter] ++
    List.replicate 11 Event.handler

theorem powTwo_32 : PowTwo 32 := ⟨5, rfl⟩

theorem liteosA_tx_ownership_sendOne :
    ∃ s : State NetBuf NetBuf,
      (system (liteosA 4096) 32).run (zeroed 32) (sendOne ⟨1, 2, 3⟩) = some s ∧
        s.freed = [⟨1, 2, 3⟩] ∧ Partitioned (liteosA 4096) 32 s := by
  have hrun : ((system (liteosA 4096) 32).run (zeroed 32) (sendOne ⟨1, 2, 3⟩)).map State.freed =
      some [⟨1, 2, 3⟩] := by decide
  obtain ⟨s, hs, hfreed⟩ := Option.map_eq_some_iff.mp hrun
  exact ⟨s, hs, hfreed, (liteosA_tx_ownership powTwo_32 (by decide)
    (Reachable.run (.init (init_zeroed 32)) hs)).1⟩

theorem riscv32_tx_ownership {vnHdr : UInt64} {ethPadSize qsz : UInt16} (hp : PowTwo qsz)
    {s : State PbufChain TbufRecord}
    (h : Reachable (system (riscv32 vnHdr ethPadSize) qsz) s) :
    Partitioned (riscv32 vnHdr ethPadSize) qsz s ∧
      (freeList s ++ heldList (riscv32 vnHdr ethPadSize) s ++
        (outstanding s).flatMap s.q.chainOf).Nodup ∧
      (∀ p t, s.sender = .take p → next (riscv32 vnHdr ethPadSize) s .sender = some t →
        (t.sender = .yield p ∧ freeList t = freeList s) ∨
          (freeList s = heldList (riscv32 vnHdr ethPadSize) t ++ freeList t ∧
            (heldList (riscv32 vnHdr ethPadSize) t).length = p.rest.length + 2)) ∧
      (∀ p head, s.sender = .fill p head →
        Sealed (more s.q.desc) (link s.q.desc) head (heldList (riscv32 vnHdr ethPadSize) s) ∧
          (heldList (riscv32 vnHdr ethPadSize) s).length = p.rest.length + 2) ∧
      (∀ head idx early t, s.handler = .splice head idx early →
        next (riscv32 vnHdr ethPadSize) s .handler = some t →
        freeList t = s.q.chainOf head ++ freeList s ∧
          t.handler = .unlock (s.bufOf (riscv32 vnHdr ethPadSize) head)) ∧
      (outstanding s = [] → handlerBuf s.handler = [] → senderBuf s.sender = [] →
        s.freed.Perm s.handed) := by
  have hq : (riscv32 vnHdr ethPadSize).minRing ≤ qsz.toNat := Nat.zero_le _
  have hpart := reachable_partitioned hp hq h
  have hlen : ∀ p, ((riscv32 vnHdr ethPadSize).entries p).toNat = p.rest.length + 2 :=
    pbufClen_succ_toNat
  refine ⟨hpart, hpart.nodup, ?_, ?_, ?_, hpart.settled⟩
  · intro p t hpc ht
    have hsplit := take_splits hp hq h hpc ht
    rwa [hlen] at hsplit
  · intro p head hpc
    have hprep := prepared_chain hp hq h hpc
    rwa [hlen] at hprep
  · intro head idx early t hpc ht
    exact splice_returns hp hq h hpc ht

def threePbufs : PbufChain := ⟨7, ⟨100, 60⟩, [⟨200, 40⟩, ⟨300, 20⟩], by decide⟩

theorem riscv32_tx_ownership_sendOne :
    ∃ s : State PbufChain TbufRecord,
      (system (riscv32 4096 2) 32).run (zeroed 32) (sendOne threePbufs) = some s ∧
        s.freed = [threePbufs] ∧ Partitioned (riscv32 4096 2) 32 s := by
  have hrun : ((system (riscv32 4096 2) 32).run (zeroed 32) (sendOne threePbufs)).map
      State.freed = some [threePbufs] := by decide +kernel
  obtain ⟨s, hs, hfreed⟩ := Option.map_eq_some_iff.mp hrun
  exact ⟨s, hs, hfreed, (riscv32_tx_ownership powTwo_32
    (Reachable.run (.init (init_zeroed 32)) hs)).1⟩

end VirtnetTxPartition
