import DeviceQemu.VirtnetTx
import Mathlib.Data.List.Nodup
import Mathlib.Data.List.Perm.Basic

/-! Descriptor ownership on the transmit queue. -/
namespace VirtnetTxOwnership

open StepSystem RingWindow LinkedWalk Virtmmio VirtnetTx

variable {β ρ : Type} {d : Driver β ρ} {qsz : UInt16}

abbrev link (desc : UInt16 → VirtqDesc) (i : UInt16) : UInt16 := (desc i).next
abbrev more (desc : UInt16 → VirtqDesc) (i : UInt16) : Bool := (desc i).hasNext

def span (desc : UInt16 → VirtqDesc) (i : UInt16) : UInt64 × UInt32 := ((desc i).pAddr, (desc i).len)

theorem takeEntries_path {desc : UInt16 → VirtqDesc} {idx t a y : UInt16} {xs : List UInt16}
    (h : Path (link desc) idx (xs ++ [a]) y) :
    takeEntries desc (xs.length + 1) idx t = (a, y) := by
  induction xs generalizing idx t with
  | nil =>
    obtain ⟨rfl, rfl⟩ := h
    rfl
  | cons x xs ih =>
    obtain ⟨rfl, h⟩ := h
    exact @ih _ idx h

structure Filled (desc desc' : UInt16 → VirtqDesc) (xs : List UInt16)
    (segs : List (UInt64 × UInt32)) : Prop where
  next : ∀ a, (desc' a).next = (desc a).next
  flag : ∀ a, (desc' a).flag = (desc a).flag
  other : ∀ a, a ∉ xs → desc' a = desc a
  spans : xs.map (span desc') = segs

theorem fillSegments_filled {segs : List (UInt64 × UInt32)} {desc : UInt16 → VirtqDesc}
    {tmp y : UInt16} {xs : List UInt16} (h : Path (link desc) tmp (tmp :: xs) y)
    (hn : xs.Nodup) (hl : xs.length = segs.length) :
    Filled desc (fillSegments desc tmp segs).1 xs segs ∧
      (tmp :: xs).getLast? = some (fillSegments desc tmp segs).2 := by
  induction segs generalizing desc tmp xs with
  | nil =>
    obtain rfl : xs = [] := List.length_eq_zero_iff.mp hl
    exact ⟨⟨fun _ => rfl, fun _ => rfl, fun _ _ => rfl, rfl⟩, rfl⟩
  | cons seg segs ih =>
    obtain ⟨pAddr, len⟩ := seg
    cases xs with
    | nil => simp at hl
    | cons x xs =>
      obtain ⟨-, hx, hp⟩ := h
      obtain ⟨hxs, hn⟩ := List.nodup_cons.mp hn
      let desc' := Function.update desc x { desc x with pAddr, len }
      have hnext : ∀ a, (desc' a).next = (desc a).next := by
        intro a
        by_cases ha : a = x
        · subst ha; simp [desc']
        · simp [desc', ha]
      have hflag : ∀ a, (desc' a).flag = (desc a).flag := by
        intro a
        by_cases ha : a = x
        · subst ha; simp [desc']
        · simp [desc', ha]
      have hp' : Path (link desc') x (x :: xs) y :=
        Path.frame ⟨rfl, hp⟩ fun a _ => hnext a
      obtain ⟨hf, ht⟩ := ih hp' hn (by simpa using hl)
      have hunfold : fillSegments desc tmp ((pAddr, len) :: segs) = fillSegments desc' x segs := by
        simp only [fillSegments, desc']
        rw [show (desc tmp).next = x from hx]
      rw [hunfold]
      refine ⟨⟨fun a => (hf.next a).trans (hnext a), fun a => (hf.flag a).trans (hflag a),
        fun a ha => ?_, ?_⟩, by simpa using ht⟩
      · rw [hf.other a (fun h => ha (List.mem_cons_of_mem _ h))]
        have hax : a ≠ x := by rintro rfl; exact ha (List.mem_cons_self ..)
        exact Function.update_of_ne hax _ _
      · rw [List.map_cons, hf.spans, span, hf.other x hxs]
        simp [desc']

/-- A chain that carries `buf` and belongs to the device or to the handler. -/
structure Loan (β : Type) where
  head : UInt16
  nodes : List UInt16
  buf : β

/-- Descriptors cut from the free list for `p`, linked but perhaps still continued. -/
structure Cut (d : Driver β ρ) (desc : UInt16 → VirtqDesc) (p : β) (head : UInt16)
    (nodes : List UInt16) : Prop where
  path : ∃ y, Path (link desc) head nodes y
  inner : ∀ a ∈ nodes.dropLast, more desc a = true
  length : nodes.length = (d.segments p).length + 1

structure LoanOk (d : Driver β ρ) (desc : UInt16 → VirtqDesc) (tbufRec : UInt16 → ρ)
    (c : Loan β) : Prop where
  closed : Sealed (more desc) (link desc) c.head c.nodes
  length : c.nodes.length = (d.segments c.buf).length + 1
  spans : c.nodes.map (span desc) = (d.vnHdr, virtnetHdrSize) :: d.segments c.buf
  record : ∃ t, c.nodes.getLast? = some t ∧
    tbufRec (link desc c.head) = d.record c.buf (d.entries c.buf) t

theorem two_le_length (d : Driver β ρ) {p : β} {xs : List UInt16}
    (h : xs.length = (d.segments p).length + 1) : 2 ≤ xs.length := by
  have := List.length_pos_iff.mpr (d.segments_ne p)
  omega

theorem Cut.split {desc : UInt16 → VirtqDesc} {p : β} {head : UInt16} {nodes : List UInt16}
    (h : Cut d desc p head nodes) : ∃ as, nodes = head :: link desc head :: as := by
  have hlen := two_le_length d h.length
  obtain ⟨y, hp⟩ := h.path
  match nodes, hlen, hp with
  | a :: b :: as, _, ⟨ha, hb, _⟩ =>
    subst ha
    exact ⟨as, by rw [← hb]⟩

theorem LoanOk.cut {desc : UInt16 → VirtqDesc} {tbufRec : UInt16 → ρ} {c : Loan β}
    (h : LoanOk d desc tbufRec c) : Cut d desc c.buf c.head c.nodes :=
  ⟨h.closed.path, h.closed.inner, h.length⟩

theorem LoanOk.second_mem {desc : UInt16 → VirtqDesc} {tbufRec : UInt16 → ρ} {c : Loan β}
    (h : LoanOk d desc tbufRec c) : link desc c.head ∈ c.nodes := by
  obtain ⟨as, has⟩ := h.cut.split
  rw [has]
  simp

theorem LoanOk.head_mem {desc : UInt16 → VirtqDesc} {tbufRec : UInt16 → ρ} {c : Loan β}
    (h : LoanOk d desc tbufRec c) : c.head ∈ c.nodes := by
  obtain ⟨as, has⟩ := h.cut.split
  rw [has]
  simp

theorem Cut.frame {desc desc' : UInt16 → VirtqDesc} {p : β} {head : UInt16}
    {nodes : List UInt16} (h : Cut d desc p head nodes) (he : ∀ a ∈ nodes, desc' a = desc a) :
    Cut d desc' p head nodes := by
  obtain ⟨⟨y, hp⟩, hi, hl⟩ := h
  refine ⟨⟨y, hp.frame fun a ha => by rw [link, he a ha]⟩, fun a ha => ?_, hl⟩
  rw [more, he a (List.dropLast_subset nodes ha)]
  exact hi a ha

theorem LoanOk.frame {desc desc' : UInt16 → VirtqDesc} {tbufRec tbufRec' : UInt16 → ρ}
    {c : Loan β} (h : LoanOk d desc tbufRec c) (he : ∀ a ∈ c.nodes, desc' a = desc a)
    (hr : ∀ a ∈ c.nodes, tbufRec' a = tbufRec a) : LoanOk d desc' tbufRec' c := by
  obtain ⟨t, ht, hrec⟩ := h.record
  have hlink : link desc' c.head = link desc c.head := by rw [link, he _ h.head_mem]
  refine ⟨h.closed.frame (fun a ha => by rw [more, he a ha]) (fun a ha => by rw [link, he a ha]),
    h.length, ?_, t, ht, ?_⟩
  · rw [← h.spans]
    exact List.map_congr_left fun a ha => by rw [span, span, he a ha]
  · rw [hlink, hr _ h.second_mem, hrec]

theorem LoanOk.bufOf {s : State β ρ} {c : Loan β} (h : LoanOk d s.q.desc s.tbufRec c) :
    s.bufOf d c.head = c.buf := by
  obtain ⟨t, -, hrec⟩ := h.record
  rw [State.bufOf, hrec, d.recBuf_record]

/-- The abstract state: who owns which descriptors, and in which order the queues hold them. -/
structure Owners (β : Type) where
  free : List UInt16
  held : List UInt16
  current : List (Loan β)
  used : List (Loan β)
  inFlight : List (Loan β)
  avail : List (Loan β)

def Owners.loans (g : Owners β) : List (Loan β) := g.current ++ g.used ++ g.inFlight ++ g.avail

def Owners.all (g : Owners β) : List UInt16 := g.free ++ g.held ++ g.loans.flatMap Loan.nodes

/-- The used element being handled counts as taken from the moment it is read. -/
def taken (last : UInt16) : HandlerPc β ρ → UInt16
  | .lookup _ | .lock _ _ _ | .splice _ _ _ | .unlock _ | .free _ | .advance => last + 1
  | _ => last

/-- The buffer a running LowLevelOutput has not published yet. -/
def senderBuf : SenderPc β → List β
  | .idle | .notify => []
  | .lock p | .take p | .yield p | .unlock p _ _ | .clearTail p _ _ | .fill p _ | .record p _ _ _
  | .ring p _ | .publish p _ => [p]

/-- The buffer FreeTxEntry has detached and not freed yet. -/
def handlerBuf : HandlerPc β ρ → List β
  | .unlock nb | .free nb => [nb]
  | _ => []

structure Drawn (d : Driver β ρ) (desc : UInt16 → VirtqDesc) (p : β) (head tail : UInt16)
    (held : List UInt16) : Prop where
  cut : Cut d desc p head held
  tail : held.getLast? = some tail

def SenderOk (d : Driver β ρ) (q : Virtq) (tbufRec : UInt16 → ρ) (held : List UInt16) :
    SenderPc β → Prop
  | .idle | .notify => held = []
  | .lock p | .take p | .yield p => held = [] ∧ (d.entries p).toNat ≤ q.qsz.toNat
  | .unlock p head tail | .clearTail p head tail => Drawn d q.desc p head tail held
  | .fill p head => Cut d q.desc p head held ∧ Sealed (more q.desc) (link q.desc) head held
  | .record p head idx tail =>
    Drawn d q.desc p head tail held ∧ Sealed (more q.desc) (link q.desc) head held ∧
      held.map (span q.desc) = (d.vnHdr, virtnetHdrSize) :: d.segments p ∧
      idx = link q.desc head
  | .ring p head => LoanOk d q.desc tbufRec ⟨head, held, p⟩
  | .publish p head => LoanOk d q.desc tbufRec ⟨head, held, p⟩ ∧
      q.avail.ring (slot q.qsz q.avail.index) = head

def HandlerOk (q : Virtq) (tbufRec : UInt16 → ρ) (current : List (Loan β)) :
    HandlerPc β ρ → Prop
  | .off | .mask | .test | .unmask | .unlock _ | .free _ | .advance => current = []
  | .read => current = [] ∧ q.last ≠ q.used.index
  | .lookup head => ∃ c, current = [c] ∧ c.head = head
  | .lock head idx early | .splice head idx early =>
    ∃ c, current = [c] ∧ c.head = head ∧ idx = link q.desc head ∧
      early.getD (tbufRec idx) = tbufRec idx

structure Inv (d : Driver β ρ) (qsz : UInt16) (s : State β ρ) (g : Owners β) : Prop where
  size : s.q.qsz = qsz
  parts : g.all.Perm (indices qsz)
  freeNum : s.tFreeNum.toNat = g.free.length
  freePath : ∃ y, Path (link s.q.desc) s.tFreeHdr g.free y
  freeMore : ∀ a ∈ g.free.dropLast, more s.q.desc a = true
  loans : ∀ c ∈ g.loans, LoanOk d s.q.desc s.tbufRec c
  avail : s.q.availFrom s.dev.seen = g.avail.map Loan.head
  inFlight : s.dev.inFlight = g.inFlight.map Loan.head
  used : (s.q.usedFrom (taken s.q.last s.handler)).map (fun e => e.id.toUInt16) = g.used.map Loan.head
  sender : SenderOk d s.q s.tbufRec g.held s.sender
  handler : HandlerOk s.q s.tbufRec g.current s.handler
  completed : s.completed = s.freed ++ handlerBuf s.handler ++ (g.current ++ g.used).map Loan.buf
  handed : s.handed.Perm
    (s.completed ++ (g.inFlight ++ g.avail).map Loan.buf ++ senderBuf s.sender)

theorem Inv.nodup {s : State β ρ} {g : Owners β} (h : Inv d qsz s g) : g.all.Nodup :=
  h.parts.nodup_iff.mpr (nodup_indices qsz)

theorem initTxFreelist_of_lt (desc : UInt16 → VirtqDesc) {n i : ℕ} (hi : i < n) (hn : n < 65536) :
    (initTxFreelist desc n (UInt16.ofNat i)).flag = virtqDescFNext ∧
      (initTxFreelist desc n (UInt16.ofNat i)).next = UInt16.ofNat (i + 1) := by
  induction n with
  | zero => omega
  | succ n ih =>
    by_cases hin : i = n
    · subst hin
      simp [initTxFreelist]
    · have hne : UInt16.ofNat i ≠ UInt16.ofNat n := by
        intro h
        have h := congrArg UInt16.toNat h
        simp only [UInt16.toNat_ofNat'] at h
        omega
      simp only [initTxFreelist, Function.update_of_ne hne]
      exact ih (by omega) (by omega)

theorem path_range {desc : UInt16 → VirtqDesc} {n k : ℕ}
    (h : ∀ i, k ≤ i → i < k + n → link desc (UInt16.ofNat i) = UInt16.ofNat (i + 1)) :
    Path (link desc) (UInt16.ofNat k) ((List.range' k n).map UInt16.ofNat)
      (UInt16.ofNat (k + n)) := by
  induction n generalizing k with
  | zero => rfl
  | succ n ih =>
    refine ⟨rfl, ?_⟩
    rw [h k (by omega) (by omega), show k + (n + 1) = k + 1 + n by omega]
    exact ih fun i hi hlt => h i (by omega) (by omega)

theorem hasNext_of_flag {x : VirtqDesc} (h : x.flag = virtqDescFNext) : x.hasNext = true := by
  simp [VirtqDesc.hasNext, h, virtqDescFNext]

theorem init_inv {s : State β ρ} (hq : 1 ≤ qsz.toNat) (h : Init qsz s) :
    Inv d qsz s ⟨indices qsz, [], [], [], [], []⟩ := by
  obtain ⟨desc, hdesc⟩ := h.desc
  have hlt := qsz.toNat_lt
  obtain ⟨m, hm⟩ : ∃ m, qsz.toNat = m + 1 := ⟨qsz.toNat - 1, by omega⟩
  have hlink : ∀ i, i < m → (s.q.desc (UInt16.ofNat i)).flag = virtqDescFNext ∧
      link s.q.desc (UInt16.ofNat i) = UInt16.ofNat (i + 1) := by
    intro i hi
    rw [hdesc, show qsz.toNat - 1 = m by omega]
    exact initTxFreelist_of_lt desc hi (by omega)
  have hind : indices qsz = (List.range' 0 m).map UInt16.ofNat ++ [UInt16.ofNat m] := by
    rw [indices, hm, List.range_succ, List.map_append, List.range_eq_range']
    rfl
  constructor
  · exact h.size
  · simp [Owners.all, Owners.loans]
  · simp [h.tFreeNum]
  · have hp := @path_range s.q.desc m 0 fun i _ hi => (hlink i (by omega)).2
    refine ⟨link s.q.desc (UInt16.ofNat m), ?_⟩
    rw [hind, path_append]
    refine ⟨UInt16.ofNat m, ?_, rfl, rfl⟩
    rw [h.tFreeHdr]
    simpa using hp
  · intro a ha
    rw [hind, List.dropLast_concat] at ha
    obtain ⟨i, hi, rfl⟩ := List.mem_map.mp ha
    exact hasNext_of_flag (hlink i (by simpa using List.mem_range'.mp hi)).1
  · simp [Owners.loans]
  · simp [Virtq.availFrom, h.availIndex, h.dev]
  · simp [h.dev]
  · simp [Virtq.usedFrom, taken, h.handler, h.usedIndex, h.last]
  · simp [h.sender, SenderOk]
  · simp [h.handler, HandlerOk]
  · simp [h.completed, h.freed, h.handler, handlerBuf]
  · simp [h.handed, h.completed, h.sender, senderBuf]

theorem Inv.free_held {s : State β ρ} {g : Owners β} (h : Inv d qsz s g) {a : UInt16}
    (ha : a ∈ g.free) : a ∉ g.held := by
  intro hh
  have hn := (List.nodup_append.mp (List.nodup_append.mp h.nodup).1).2.2
  exact hn a ha a hh rfl

theorem Inv.owned_loan {s : State β ρ} {g : Owners β} (h : Inv d qsz s g) {a : UInt16}
    (ha : a ∈ g.free ++ g.held) {c : Loan β} (hc : c ∈ g.loans) : a ∉ c.nodes := by
  intro hn
  exact (List.nodup_append.mp h.nodup).2.2 a ha a (List.mem_flatMap.mpr ⟨c, hc, hn⟩) rfl

theorem Inv.loan_held {s : State β ρ} {g : Owners β} (h : Inv d qsz s g) {a : UInt16}
    {c : Loan β} (hc : c ∈ g.loans) (ha : a ∈ c.nodes) : a ∉ g.held :=
  fun hh => h.owned_loan (List.mem_append_right _ hh) hc ha

theorem mem_loans_of_current {g : Owners β} {c : Loan β} (h : c ∈ g.current) : c ∈ g.loans := by
  simp [Owners.loans, h]

theorem length_le_nodes {l : List (Loan β)} (h : ∀ c ∈ l, 1 ≤ c.nodes.length) :
    l.length ≤ (l.flatMap Loan.nodes).length := by
  induction l with
  | nil => simp
  | cons c l ih =>
    have h1 := h c (List.mem_cons_self ..)
    have h2 := ih fun b hb => h b (List.mem_cons_of_mem _ hb)
    simp only [List.flatMap_cons, List.length_append, List.length_cons]
    omega

/-- Free and held descriptors and outstanding chains together never exceed the ring. -/
theorem Inv.count {s : State β ρ} {g : Owners β} (h : Inv d qsz s g) :
    g.free.length + g.held.length + g.loans.length ≤ qsz.toNat := by
  have hlen := h.parts.length_eq
  have hle : g.loans.length ≤ (g.loans.flatMap Loan.nodes).length :=
    length_le_nodes fun c hc => by
      have := two_le_length d (h.loans c hc).length
      omega
  simp only [Owners.all, List.length_append, length_indices] at hlen
  omega

theorem Inv.avail_gap {s : State β ρ} {g : Owners β} (h : Inv d qsz s g) :
    (s.q.avail.index - s.dev.seen).toNat = g.avail.length := by
  have hlen := congrArg List.length h.avail
  simpa [Virtq.availFrom] using hlen

theorem Inv.used_gap {s : State β ρ} {g : Owners β} (h : Inv d qsz s g) :
    (s.q.used.index - taken s.q.last s.handler).toNat = g.used.length := by
  have hlen := congrArg List.length h.used
  simpa [Virtq.usedFrom] using hlen

/-- The handler relies only on the descriptors and the record of the chain it is freeing. -/
theorem HandlerOk.frame {q q' : Virtq} {tbufRec tbufRec' : UInt16 → ρ} {current : List (Loan β)}
    {pc : HandlerPc β ρ} (h : HandlerOk q tbufRec current pc)
    (hok : ∀ c ∈ current, LoanOk d q.desc tbufRec c)
    (hd : ∀ c ∈ current, ∀ a ∈ c.nodes, q'.desc a = q.desc a)
    (hr : ∀ c ∈ current, ∀ a ∈ c.nodes, tbufRec' a = tbufRec a)
    (hlast : q'.last = q.last)
    (hidx : pc = .read → q.last ≠ q.used.index → q.last ≠ q'.used.index) :
    HandlerOk q' tbufRec' current pc := by
  cases pc with
  | read => exact ⟨h.1, by rw [hlast]; exact hidx rfl h.2⟩
  | lock head idx early | splice head idx early =>
    obtain ⟨c, hc, rfl, rfl, he⟩ := h
    have hmem : c ∈ current := by rw [hc]; exact List.mem_singleton_self c
    have hlink : link q'.desc c.head = link q.desc c.head :=
      congrArg VirtqDesc.next (hd c hmem _ (hok c hmem).head_mem)
    refine ⟨c, hc, rfl, hlink.symm, ?_⟩
    rw [hr c hmem _ (hok c hmem).second_mem]
    exact he
  | _ => exact h

theorem SenderOk.frame {q : Virtq} {tbufRec : UInt16 → ρ} {held : List UInt16} {pc : SenderPc β}
    {desc : UInt16 → VirtqDesc} (h : SenderOk d q tbufRec held pc)
    (hd : ∀ a ∈ held, desc a = q.desc a) : SenderOk d { q with desc } tbufRec held pc := by
  have hloan : ∀ {p head}, LoanOk d q.desc tbufRec ⟨head, held, p⟩ →
      LoanOk d desc tbufRec ⟨head, held, p⟩ := fun hl => hl.frame hd fun _ _ => rfl
  have hsealed : ∀ {head}, Sealed (more q.desc) (link q.desc) head held →
      Sealed (more desc) (link desc) head held := fun hs =>
    hs.frame (fun a ha => by rw [more, hd a ha]) fun a ha => by rw [link, hd a ha]
  cases pc with
  | idle | notify | lock p | take p | yield p => exact h
  | unlock p head tail | clearTail p head tail => exact ⟨h.cut.frame hd, h.tail⟩
  | fill p head => exact ⟨h.1.frame hd, hsealed h.2⟩
  | record p head idx tail =>
    obtain ⟨hdrawn, hs, hspans, rfl⟩ := h
    obtain ⟨as, has⟩ := hdrawn.cut.split
    have hhead : head ∈ held := by rw [has]; simp
    have hspan : ∀ a ∈ held, span desc a = span q.desc a := fun a ha => by
      rw [span, span, hd a ha]
    have hlink : link desc head = link q.desc head := by rw [link, hd head hhead]
    exact ⟨⟨hdrawn.cut.frame hd, hdrawn.tail⟩, hsealed hs,
      (List.map_congr_left hspan).trans hspans, hlink.symm⟩
  | ring p head => exact hloan h
  | publish p head => exact ⟨hloan h.1, h.2⟩

theorem Inv.sender_writes {s : State β ρ} {g : Owners β} (h : Inv d qsz s g)
    (desc : UInt16 → VirtqDesc) (tbufRec : UInt16 → ρ) (lock : Bool) (pc : SenderPc β)
    (hd : ∀ a, a ∉ g.held → desc a = s.q.desc a) (hr : ∀ a, a ∉ g.held → tbufRec a = s.tbufRec a)
    (hs : SenderOk d { s.q with desc } tbufRec g.held pc)
    (hb : senderBuf pc = senderBuf s.sender) :
    Inv d qsz { s with q := { s.q with desc }, tbufRec, transLock := lock, sender := pc } g := by
  have hfree : ∀ a ∈ g.free, desc a = s.q.desc a := fun a ha => hd a (h.free_held ha)
  constructor
  · exact h.size
  · exact h.parts
  · exact h.freeNum
  · obtain ⟨y, hp⟩ := h.freePath
    exact ⟨y, hp.frame fun a ha => congrArg VirtqDesc.next (hfree a ha)⟩
  · intro a ha
    have hmore := congrArg VirtqDesc.hasNext (hfree a (List.dropLast_subset g.free ha))
    exact hmore.trans (h.freeMore a ha)
  · intro c hc
    exact (h.loans c hc).frame (fun a ha => hd a (h.loan_held hc ha))
      (fun a ha => hr a (h.loan_held hc ha))
  · exact h.avail
  · exact h.inFlight
  · exact h.used
  · exact hs
  · exact h.handler.frame (fun c hc => h.loans c (mem_loans_of_current hc))
      (fun c hc a ha => hd a (h.loan_held (mem_loans_of_current hc) ha))
      (fun c hc a ha => hr a (h.loan_held (mem_loans_of_current hc) ha)) rfl fun _ => id
  · exact h.completed
  · rw [hb]
    exact h.handed

theorem Inv.sender_moves {s : State β ρ} {g : Owners β} (h : Inv d qsz s g) (lock : Bool)
    (pc : SenderPc β) (hs : SenderOk d s.q s.tbufRec g.held pc)
    (hb : senderBuf pc = senderBuf s.sender) :
    Inv d qsz { s with transLock := lock, sender := pc } g :=
  h.sender_writes s.q.desc s.tbufRec lock pc (fun _ _ => rfl) (fun _ _ => rfl) hs hb

theorem mem_dropLast_append {α : Type*} {xs ys : List α} {a : α} (hy : ys ≠ [])
    (ha : a ∈ xs ++ ys.dropLast) : a ∈ (xs ++ ys).dropLast := by
  rwa [List.dropLast_append_of_ne_nil hy]

theorem Inv.take {s : State β ρ} {g : Owners β} (h : Inv d qsz s g) {p : β}
    (hp : s.sender = .take p) (hle : ¬ d.entries p > s.tFreeNum) :
    ∃ xs ys, g.free = xs ++ ys ∧ Inv d qsz { s with
      tFreeNum := s.tFreeNum - d.entries p
      tFreeHdr := (takeEntries s.q.desc (d.entries p).toNat s.tFreeHdr s.tFreeHdr).2
      sender := .unlock p s.tFreeHdr
        (takeEntries s.q.desc (d.entries p).toNat s.tFreeHdr s.tFreeHdr).1 }
      { g with free := ys, held := xs } := by
  have hheld : g.held = [] := by
    have hs := h.sender
    rw [hp] at hs
    exact hs.1
  have hle : d.entries p ≤ s.tFreeNum := UInt16.not_lt.mp hle
  have hn : (d.entries p).toNat ≤ g.free.length := by
    rw [← h.freeNum]
    exact UInt16.le_iff_toNat_le.mp hle
  -- split the free list after its first `entries p` nodes
  obtain ⟨xs, ys, hfree, hlen⟩ : ∃ xs ys, g.free = xs ++ ys ∧ xs.length = (d.entries p).toNat :=
    ⟨_, _, (List.take_append_drop (d.entries p).toNat g.free).symm, by simp [hn]⟩
  obtain ⟨y, hpath⟩ := h.freePath
  rw [hfree, path_append] at hpath
  obtain ⟨m, hxs, hys⟩ := hpath
  have hne : xs ≠ [] := by
    rintro rfl
    have := d.entries_eq p
    simp at hlen
    omega
  obtain ⟨as, a, rfl⟩ := (List.eq_nil_or_concat' xs).resolve_left hne
  have htake : takeEntries s.q.desc (d.entries p).toNat s.tFreeHdr s.tFreeHdr = (a, m) := by
    rw [← hlen, List.length_append, List.length_singleton]
    exact takeEntries_path hxs
  have hinner : ∀ b ∈ (as ++ [a]).dropLast, more s.q.desc b = true := by
    intro b hb
    apply h.freeMore
    rw [hfree]
    by_cases hy : ys = []
    · rwa [hy, List.append_nil]
    · exact mem_dropLast_append hy (List.mem_append_left _ (List.dropLast_subset _ hb))
  rw [htake]
  refine ⟨as ++ [a], ys, hfree, ?_⟩
  constructor
  · exact h.size
  · have hperm : (ys ++ (as ++ [a])).Perm g.free := by
      rw [hfree]
      exact List.perm_append_comm
    have hall := h.parts
    rw [Owners.all, hheld, List.append_nil] at hall
    exact (hperm.append_right _).trans hall
  · have := h.freeNum
    dsimp only
    rw [UInt16.toNat_sub_of_le _ _ hle, this, hfree, ← hlen]
    simp only [List.length_append, List.length_singleton]
    omega
  · exact ⟨y, hys⟩
  · intro b hb
    apply h.freeMore
    rw [hfree]
    by_cases hy : ys = []
    · simp [hy] at hb
    · exact mem_dropLast_append hy (List.mem_append_right _ hb)
  · exact h.loans
  · exact h.avail
  · exact h.inFlight
  · exact h.used
  · exact ⟨⟨⟨m, hxs⟩, hinner, by rw [hlen, d.entries_eq]⟩, by simp⟩
  · exact h.handler
  · exact h.completed
  · have hh := h.handed
    rw [hp] at hh
    exact hh

/-- A handler step that leaves the memory of the queue and the owners as they are. -/
theorem Inv.handler_moves {s : State β ρ} {g : Owners β} (h : Inv d qsz s g) (flag : UInt16)
    (lock : Bool) (freed : List β) (last : UInt16) (pc : HandlerPc β ρ)
    (hu : taken last pc = taken s.q.last s.handler)
    (hh : HandlerOk { s.q with last } s.tbufRec g.current pc)
    (hb : freed ++ handlerBuf pc = s.freed ++ handlerBuf s.handler) :
    Inv d qsz { s with
      q := { s.q with last, avail := { s.q.avail with flag } }
      transLock := lock, freed, handler := pc } g := by
  obtain ⟨h1, h2, h3, h4, h5, h6, h7, h8, h9, h10, -, h12, h13⟩ := h
  refine ⟨h1, h2, h3, h4, h5, h6, h7, h8, ?_, ?_, ?_, ?_, h13⟩
  · simp only [hu]
    exact h9
  · cases hpc : s.sender <;> rw [hpc] at h10 <;> exact h10
  · cases pc <;> exact hh
  · simp only [hb]
    exact h12

end VirtnetTxOwnership
