import DeviceQemu.BoundedFifo
import DeviceQemu.CircularBuffer
import DeviceQemu.UartPl011

/-! The receive ring is a bounded FIFO.
An append takes effect when it publishes wp and a read when it publishes rp. Until then each
call relies on what it read: the other side can only make more room, or more bytes. -/
namespace UartPl011Fifo

open StepSystem CircularBuffer UartPl011

/-- The two parts of a transfer of `n` bytes from position `p`, and the position behind it. -/
structure Splits (b p n : ℕ) (halves : UInt32 × UInt32) (after : UInt32) : Prop where
  total : halves.1.toNat + halves.2.toNat = n
  upper : p + halves.1.toNat ≤ b
  lower : 0 < halves.2.toNat → p + halves.1.toNat = b
  after : after.toNat = wrap b (p + n)

theorem toNat_min {limit : UInt32} {count n : ℕ} (h : min count limit.toNat = n) :
    (if count > limit.toNat then limit else UInt32.ofNat count).toNat = n := by
  have := limit.toNat_lt
  split_ifs
  · omega
  · rw [UInt32.toNat_ofNat']
    omega

/-- The branch in which the cells up to the other position are in one piece. -/
theorem onePart_splits {bufSize p limit : UInt32} (h : p.toNat + limit.toNat < bufSize.toNat)
    (count : ℕ) :
    Splits bufSize.toNat p.toNat (min count limit.toNat)
      (if count > limit.toNat then limit else .ofNat count, 0)
      (p + if count > limit.toNat then limit else .ofNat count) := by
  have hb := bufSize.toNat_lt
  have hn := @toNat_min limit count _ rfl
  constructor
  · simp [hn]
  · simp only [hn]
    omega
  · simp
  · rw [UInt32.toNat_add, hn]
    unfold wrap
    split_ifs <;> omega

theorem twoPart_splits {bufSize p limit : UInt32} (hp : p.toNat < bufSize.toNat)
    (hl : limit.toNat < bufSize.toNat) {count : ℕ} (hc : count ≤ limit.toNat)
    {halves : UInt32 × UInt32}
    (h₁ : halves.1 = if count > (bufSize - p).toNat then bufSize - p else .ofNat count)
    (h₂ : halves.2 =
      if count > (bufSize - p).toNat then .ofNat (count - (bufSize - p).toNat) else 0) :
    Splits bufSize.toNat p.toNat count halves
      (if p + halves.1 ≥ bufSize then halves.2 else p + halves.1) := by
  have hb := bufSize.toNat_lt
  have hsub : (bufSize - p).toNat = bufSize.toNat - p.toNat := by
    rw [UInt32.toNat_sub]
    omega
  have hupper : halves.1.toNat = min count (bufSize.toNat - p.toNat) := by
    rw [h₁]
    exact toNat_min (by rw [hsub])
  have hlower : halves.2.toNat = count - (bufSize.toNat - p.toNat) := by
    rw [h₂, hsub]
    split_ifs
    · rw [UInt32.toNat_ofNat']
      omega
    · rw [UInt32.toNat_zero]
      omega
  have hnext : (p + halves.1).toNat = p.toNat + halves.1.toNat := by
    rw [UInt32.toNat_add]
    omega
  constructor
  · omega
  · omega
  · omega
  · have hge : p + halves.1 ≥ bufSize ↔ bufSize.toNat ≤ (p + halves.1).toNat :=
      UInt32.le_iff_toNat_le
    unfold wrap
    split_ifs with hif <;> rw [hge] at hif <;> omega

theorem recvHalves_splits {bufSize wp rp : UInt32} (hw : wp.toNat < bufSize.toNat)
    (hr : rp.toNat < bufSize.toNat) (count : ℕ) :
    Splits bufSize.toNat wp.toNat (min count (free bufSize.toNat rp.toNat wp.toNat))
      (recvHalves bufSize wp rp count)
      (recvNext bufSize wp rp (recvHalves bufSize wp rp count)) := by
  have hb := bufSize.toNat_lt
  by_cases hlt : wp < rp
  · have hlt' := UInt32.lt_iff_toNat_lt.mp hlt
    have hroom : (rp - wp - 1).toNat = free bufSize.toNat rp.toNat wp.toNat := by
      simp only [UInt32.toNat_sub, UInt32.toNat_one]
      unfold free used
      split_ifs <;> omega
    simp only [recvHalves, recvNext, if_pos hlt]
    rw [← hroom]
    refine onePart_splits ?_ count
    rw [hroom]
    unfold free used
    split_ifs <;> omega
  · have hle := UInt32.le_iff_toNat_le.mp (UInt32.not_lt.mp hlt)
    have hroom : (bufSize - wp + rp - 1).toNat = free bufSize.toNat rp.toNat wp.toNat := by
      rw [free, used, if_pos hle]
      simp only [UInt32.toNat_sub, UInt32.toNat_add, UInt32.toNat_one]
      omega
    have hmin : min count (free bufSize.toNat rp.toNat wp.toNat) =
        if count > (bufSize - wp + rp - 1).toNat then (bufSize - wp + rp - 1).toNat else count := by
      rw [hroom]
      split_ifs <;> omega
    simp only [recvHalves, recvNext, if_neg hlt]
    rw [hmin]
    refine @twoPart_splits bufSize wp (bufSize - wp + rp - 1) hw ?_ _ ?_ _ rfl rfl
    · rw [hroom]
      unfold free
      omega
    · split_ifs <;> omega

theorem readHalves_splits {bufSize wp rp : UInt32} (hw : wp.toNat < bufSize.toNat)
    (hr : rp.toNat < bufSize.toNat) (hne : rp ≠ wp) (count : ℕ) :
    Splits bufSize.toNat rp.toNat (min count (used bufSize.toNat rp.toNat wp.toNat))
      (readHalves bufSize wp rp count)
      (readNext bufSize wp rp (readHalves bufSize wp rp count)) := by
  have hb := bufSize.toNat_lt
  by_cases hlt : rp < wp
  · have hlt' := UInt32.lt_iff_toNat_lt.mp hlt
    have hroom : (wp - rp).toNat = used bufSize.toNat rp.toNat wp.toNat := by
      rw [UInt32.toNat_sub]
      unfold used
      split_ifs <;> omega
    simp only [readHalves, readNext, if_pos hlt]
    rw [← hroom]
    refine onePart_splits ?_ count
    rw [hroom]
    unfold used
    split_ifs <;> omega
  · have hle := UInt32.le_iff_toNat_le.mp (UInt32.not_lt.mp hlt)
    have hne' : rp.toNat ≠ wp.toNat := fun h => hne (UInt32.toNat_inj.mp h)
    have hroom : (bufSize - rp + wp).toNat = used bufSize.toNat rp.toNat wp.toNat := by
      simp only [UInt32.toNat_sub, UInt32.toNat_add]
      unfold used
      split_ifs <;> omega
    have hmin : min count (used bufSize.toNat rp.toNat wp.toNat) =
        if count > (bufSize - rp + wp).toNat then (bufSize - rp + wp).toNat else count := by
      rw [hroom]
      split_ifs <;> omega
    simp only [readHalves, readNext, if_neg hlt]
    rw [hmin]
    refine @twoPart_splits bufSize rp (bufSize - rp + wp) hr ?_ _ ?_ _ rfl rfl
    · rw [hroom]
      exact used_lt hr hw
    · split_ifs <;> omega

theorem Splits.upper_cell {b p n i : ℕ} {halves : UInt32 × UInt32} {after : UInt32}
    (h : Splits b p n halves after) (hi : i < halves.1.toNat) : wrap b (p + i) = p + i := by
  have := h.upper
  unfold wrap
  split_ifs <;> omega

theorem Splits.lower_cell {b p n i : ℕ} {halves : UInt32 × UInt32} {after : UInt32}
    (h : Splits b p n halves after) (hi : i < halves.2.toNat) :
    wrap b (p + (halves.1.toNat + i)) = i := by
  have := h.lower (by omega)
  unfold wrap
  split_ifs <;> omega

/-- An append that has read both positions and stored `k` bytes. -/
structure Appending (b : ℕ) (t : UartTransfer) (buf : List UInt8) (wp rp : UInt32) (k : ℕ) :
    Prop where
  pos : t.wp = wp
  looked : rp.toNat < b
  room : free b rp.toNat wp.toNat ≤ free b t.rp.toNat wp.toNat
  stored : cells b t.data wp.toNat k = buf.take k

/-- A read that has read both positions and copied `out`. -/
structure Reading (b : ℕ) (t : UartTransfer) (wp rp : UInt32) (out : List UInt8) : Prop where
  pos : t.rp = rp
  looked : wp.toNat < b
  ne : rp ≠ wp
  queued : used b rp.toNat wp.toNat ≤ used b rp.toNat t.wp.toNat
  copied : out = cells b t.data rp.toNat out.length

def RecvOk (bufSize : UInt32) (t : UartTransfer) : RecvPc → Prop
  | .idle | .readWp _ => True
  | .readRp _ wp => t.wp = wp
  | .upper buf wp rp i =>
    Appending bufSize.toNat t buf wp rp i ∧ i ≤ (recvHalves bufSize wp rp buf.length).1.toNat
  | .lower buf wp rp i =>
    let halves := recvHalves bufSize wp rp buf.length
    Appending bufSize.toNat t buf wp rp (halves.1.toNat + i) ∧ i ≤ halves.2.toNat
  | .publish buf wp rp =>
    Appending bufSize.toNat t buf wp rp
      (min buf.length (free bufSize.toNat rp.toNat wp.toNat))

def ReadOk (bufSize : UInt32) (t : UartTransfer) : ReadPc → Prop
  | .idle | .readWp _ => True
  | .readRp _ wp => wp.toNat < bufSize.toNat ∧
    used bufSize.toNat t.rp.toNat wp.toNat ≤ used bufSize.toNat t.rp.toNat t.wp.toNat
  | .upper count wp rp out =>
    Reading bufSize.toNat t wp rp out ∧
      out.length ≤ (readHalves bufSize wp rp count).1.toNat
  | .lower count wp rp out =>
    let halves := readHalves bufSize wp rp count
    Reading bufSize.toNat t wp rp out ∧ halves.1.toNat ≤ out.length ∧
      out.length ≤ halves.1.toNat + halves.2.toNat
  | .publish count wp rp out =>
    Reading bufSize.toNat t wp rp out ∧
      out.length = min count (used bufSize.toNat rp.toNat wp.toNat)

structure Inv (bufSize : UInt32) (s : State) : Prop where
  rp : s.transfer.rp.toNat < bufSize.toNat
  wp : s.transfer.wp.toNat < bufSize.toNat
  recv : RecvOk bufSize s.transfer s.recv
  read : ReadOk bufSize s.transfer s.read
  counts : ∀ c ∈ s.delivered, c.2.1.toNat = c.2.2.length

theorem init_inv {bufSize : UInt32} (hb : 2 ≤ bufSize.toNat) {s : State} (h : Init s) :
    Inv bufSize s := by
  constructor
  · rw [h.rp, UInt32.toNat_zero]
    omega
  · rw [h.wp, UInt32.toNat_zero]
    omega
  · rw [h.recv]
    trivial
  · rw [h.read]
    trivial
  · simp [h.delivered]

def offered (b : ℕ) : RecvPc → Option (List UInt8 × ℕ)
  | .idle | .readWp _ | .readRp _ _ => none
  | .upper buf wp rp _ | .lower buf wp rp _ | .publish buf wp rp =>
    some (buf, free b rp.toNat wp.toNat)

def asked (b : ℕ) (rp : UInt32) : ReadPc → Option (ℕ × ℕ)
  | .idle | .readWp _ => none
  | .readRp count wp => some (count, used b rp.toNat wp.toNat)
  | .upper count wp rp _ | .lower count wp rp _ | .publish count wp rp _ =>
    some (count, used b rp.toNat wp.toNat)

/-- The queue that the ring holds, with the calls in progress and those that have finished. -/
def fifo (bufSize : UInt32) (s : State) : BoundedFifo.State UInt8 where
  queue := contents bufSize.toNat s.transfer.data s.transfer.rp.toNat s.transfer.wp.toNat
  push := offered bufSize.toNat s.recv
  pop := asked bufSize.toNat s.transfer.rp s.read
  accepted := (s.received.map fun c => c.1.take c.2.toNat).flatten
  pushed := s.received.map fun c => (c.1, c.2.toNat)
  popped := s.delivered.map fun c => (c.1, c.2.2)

/-- A step keeps the invariant and is finitely many steps of the queue. -/
def Refines (bufSize : UInt32) (s t : State) : Prop :=
  Inv bufSize t ∧
    ∃ ds, (BoundedFifo.system UInt8 (bufSize.toNat - 1)).run (fifo bufSize s) ds =
      some (fifo bufSize t)

variable {bufSize : UInt32} {s t : State}

theorem store_reader (h : Inv bufSize s) {j : ℕ}
    (hj : j < free bufSize.toNat s.transfer.rp.toNat s.transfer.wp.toNat) (x : UInt8) :
    ReadOk bufSize (s.store (wrap bufSize.toNat (s.transfer.wp.toNat + j)) x).transfer s.read ∧
      (fifo bufSize (s.store (wrap bufSize.toNat (s.transfer.wp.toNat + j)) x)).queue =
        (fifo bufSize s).queue := by
  have hq := @contents_update _ _ _ _ _ s.transfer.data h.rp h.wp hj x
  refine ⟨?_, hq⟩
  have hout : ∀ wp rp out, Reading bufSize.toNat s.transfer wp rp out →
      out.length ≤ used bufSize.toNat rp.toNat wp.toNat →
      Reading bufSize.toNat (s.store (wrap bufSize.toNat (s.transfer.wp.toNat + j)) x).transfer
        wp rp out := by
    intro wp rp out hr hlen
    refine ⟨hr.pos, hr.looked, hr.ne, hr.queued, ?_⟩
    have hle := hlen.trans hr.queued
    have hrp := hr.pos
    subst hrp
    have heq := congrArg (List.take out.length) hq
    rw [contents, contents, cells_take _ _ _ hle, cells_take _ _ _ hle] at heq
    exact hr.copied.trans heq.symm
  have hread := h.read
  cases hpc : s.read with
  | idle => trivial
  | readWp count => trivial
  | readRp count wp =>
    rw [hpc] at hread
    exact hread
  | upper count wp rp out =>
    rw [hpc] at hread
    obtain ⟨hr, hlen⟩ := hread
    have hs := readHalves_splits hr.looked (hr.pos ▸ h.rp) hr.ne count
    have := hs.total
    exact ⟨hout wp rp out hr (by omega), hlen⟩
  | lower count wp rp out =>
    rw [hpc] at hread
    obtain ⟨hr, hlow, hlen⟩ := hread
    have hs := readHalves_splits hr.looked (hr.pos ▸ h.rp) hr.ne count
    have := hs.total
    exact ⟨hout wp rp out hr (by omega), hlow, hlen⟩
  | publish count wp rp out =>
    rw [hpc] at hread
    obtain ⟨hr, hlen⟩ := hread
    exact ⟨hout wp rp out hr (by omega), hlen⟩

theorem refines_quiet (h : Inv bufSize t) (hf : fifo bufSize t = fifo bufSize s) :
    Refines bufSize s t := ⟨h, [], by rw [hf]; rfl⟩

theorem later_reader {t : UartTransfer} {after : UInt32}
    (hle : used bufSize.toNat t.rp.toNat t.wp.toNat ≤ used bufSize.toNat t.rp.toNat after.toNat)
    {pc : ReadPc} (h : ReadOk bufSize t pc) : ReadOk bufSize { t with wp := after } pc := by
  have hout : ∀ {wp rp out}, Reading bufSize.toNat t wp rp out →
      Reading bufSize.toNat { t with wp := after } wp rp out := by
    intro wp rp out hr
    have hpos := hr.pos
    subst hpos
    exact ⟨rfl, hr.looked, hr.ne, hr.queued.trans hle, hr.copied⟩
  cases pc with
  | idle => trivial
  | readWp count => trivial
  | readRp count wp => exact ⟨h.1, h.2.trans hle⟩
  | upper count wp rp out => exact ⟨hout h.1, h.2⟩
  | lower count wp rp out => exact ⟨hout h.1, h.2⟩
  | publish count wp rp out => exact ⟨hout h.1, h.2⟩

theorem later_appender {t : UartTransfer} {after : UInt32}
    (hle : used bufSize.toNat after.toNat t.wp.toNat ≤ used bufSize.toNat t.rp.toNat t.wp.toNat)
    {pc : RecvPc} (h : RecvOk bufSize t pc) : RecvOk bufSize { t with rp := after } pc := by
  have hstored : ∀ {buf wp rp k}, Appending bufSize.toNat t buf wp rp k →
      Appending bufSize.toNat { t with rp := after } buf wp rp k := by
    intro buf wp rp k ha
    have hpos := ha.pos
    subst hpos
    refine ⟨rfl, ha.looked, ha.room.trans ?_, ha.stored⟩
    dsimp only [free]
    omega
  cases pc with
  | idle => trivial
  | readWp buf => trivial
  | readRp buf wp => exact h
  | upper buf wp rp i => exact ⟨hstored h.1, h.2⟩
  | lower buf wp rp i => exact ⟨hstored h.1, h.2⟩
  | publish buf wp rp => exact hstored h

theorem store_refines (h : Inv bufSize s) {buf : List UInt8} {wp rp : UInt32} {k : ℕ}
    (ha : Appending bufSize.toNat s.transfer buf wp rp k)
    (hk : k < min buf.length (free bufSize.toNat rp.toNat wp.toNat)) {pos : ℕ}
    (hpos : wrap bufSize.toNat (wp.toNat + k) = pos) {pc : RecvPc}
    (hpc : ∀ t', Appending bufSize.toNat t' buf wp rp (k + 1) → RecvOk bufSize t' pc)
    (hoff : offered bufSize.toNat pc = offered bufSize.toNat s.recv) :
    Refines bufSize s { s.store pos (buf.getD k 0) with recv := pc } := by
  subst hpos
  have hwp := ha.pos
  subst hwp
  have hroom := ha.room
  obtain ⟨hread, hqueue⟩ := store_reader h (j := k) (by omega) (buf.getD k 0)
  have hstored : Appending bufSize.toNat
      (s.store (wrap bufSize.toNat (s.transfer.wp.toNat + k)) (buf.getD k 0)).transfer buf
      s.transfer.wp rp (k + 1) := by
    refine ⟨rfl, ha.looked, ha.room, ?_⟩
    have hlt : k < bufSize.toNat := by
      unfold free at hk
      omega
    have hget : buf[k]? = some buf[k] := List.getElem?_eq_getElem (by omega)
    rw [List.take_add_one, ← ha.stored, List.getD_eq_getElem?_getD, hget]
    exact cells_update_succ hlt buf[k]
  refine refines_quiet ⟨h.rp, h.wp, hpc _ hstored, hread, h.counts⟩ ?_
  have hqueue : contents bufSize.toNat
      (s.store (wrap bufSize.toNat (s.transfer.wp.toNat + k)) (buf.getD k 0)).transfer.data
      s.transfer.rp.toNat s.transfer.wp.toNat =
      contents bufSize.toNat s.transfer.data s.transfer.rp.toNat s.transfer.wp.toNat := hqueue
  simp [fifo, State.store, hoff] at hqueue ⊢
  exact hqueue

/-- Publishing wp: the queue takes what the append was offered and had room for. -/
theorem append_refines (h : Inv bufSize s) {buf : List UInt8} {wp rp : UInt32}
    (hpc : s.recv = .publish buf wp rp) :
    Refines bufSize s { s with
      transfer := { s.transfer with
        wp := recvNext bufSize wp rp (recvHalves bufSize wp rp buf.length) }
      recv := .idle
      received := s.received ++ [(buf,
        (recvHalves bufSize wp rp buf.length).1 + (recvHalves bufSize wp rp buf.length).2)] } := by
  have ha : Appending bufSize.toNat s.transfer buf wp rp
      (min buf.length (free bufSize.toNat rp.toNat wp.toNat)) := by
    have hrecv := h.recv
    rw [hpc] at hrecv
    exact hrecv
  have hwp := ha.pos
  subst hwp
  have hroom := ha.room
  have hs := recvHalves_splits h.wp ha.looked buf.length
  generalize hh : recvHalves bufSize s.transfer.wp rp buf.length = halves at hs ⊢
  generalize ha' : recvNext bufSize s.transfer.wp rp halves = after at hs ⊢
  have hafter := hs.after
  have hcontents := @contents_push _ _ _ _
    (min buf.length (free bufSize.toNat rp.toNat s.transfer.wp.toNat)) s.transfer.data h.rp h.wp
    (by omega)
  have hused := used_push h.rp h.wp
    (n := min buf.length (free bufSize.toNat rp.toNat s.transfer.wp.toNat)) (by omega)
  rw [← hafter] at hcontents hused
  rw [ha.stored] at hcontents
  have hres : (halves.1 + halves.2).toNat =
      min buf.length (free bufSize.toNat rp.toNat s.transfer.wp.toNat) := by
    have htotal := hs.total
    have := bufSize.toNat_lt
    rw [UInt32.toNat_add]
    unfold free at htotal ⊢
    omega
  constructor
  · refine ⟨h.rp, ?_, trivial, ?_, h.counts⟩
    · rw [hafter]
      have := h.wp
      apply wrap_lt
      unfold free
      omega
    · exact later_reader (by omega) h.read
  · refine ⟨[.accept], ?_⟩
    have htake : buf.take (min buf.length (free bufSize.toNat rp.toNat s.transfer.wp.toNat)) =
        buf.take (free bufSize.toNat rp.toNat s.transfer.wp.toNat) := by
      rw [Nat.min_comm, ← List.take_take, List.take_length]
    rw [htake] at hcontents
    simp [BoundedFifo.system, BoundedFifo.next, fifo, hpc, offered, hcontents, hres, htake]

theorem recvStep_refines (h : Inv bufSize s) (ht : recvStep bufSize s = some t) :
    Refines bufSize s t := by
  have hrecv := h.recv
  unfold recvStep at ht
  cases hpc : s.recv with
  | idle => simp [hpc] at ht
  | readWp buf =>
    simp only [hpc, Option.some.injEq] at ht
    subst ht
    exact refines_quiet ⟨h.rp, h.wp, rfl, h.read, h.counts⟩ (by simp [fifo, hpc, offered])
  | readRp buf wp =>
    simp only [hpc, Option.some.injEq] at ht
    subst ht
    rw [hpc] at hrecv
    have hwp : s.transfer.wp = wp := hrecv
    subst hwp
    refine ⟨⟨h.rp, h.wp, ⟨⟨rfl, h.rp, le_rfl, by simp [cells]⟩, Nat.zero_le _⟩, h.read,
      h.counts⟩, [.offer buf], ?_⟩
    simp [BoundedFifo.system, BoundedFifo.next, fifo, hpc, offered, free]
  | upper buf wp rp i =>
    rw [hpc] at hrecv
    obtain ⟨ha, hi⟩ := hrecv
    have hs := recvHalves_splits (ha.pos ▸ h.wp) ha.looked buf.length
    have htotal := hs.total
    by_cases hlt : i < (recvHalves bufSize wp rp buf.length).1.toNat
    · simp only [hpc, if_pos hlt, Option.some.injEq] at ht
      subst ht
      apply store_refines h ha (by omega) (hs.upper_cell hlt)
      · exact fun t' ht' => ⟨ht', hlt⟩
      · rw [hpc]
        rfl
    · simp only [hpc, if_neg hlt, Option.some.injEq] at ht
      subst ht
      have hi : (recvHalves bufSize wp rp buf.length).1.toNat = i := by omega
      refine refines_quiet ⟨h.rp, h.wp, ⟨?_, Nat.zero_le _⟩, h.read, h.counts⟩ ?_
      · rw [hi]
        exact ha
      · simp [fifo, hpc, offered]
  | lower buf wp rp i =>
    rw [hpc] at hrecv
    obtain ⟨ha, hi⟩ := hrecv
    have hs := recvHalves_splits (ha.pos ▸ h.wp) ha.looked buf.length
    have htotal := hs.total
    by_cases hlt : i < (recvHalves bufSize wp rp buf.length).2.toNat
    · simp only [hpc, if_pos hlt, Option.some.injEq] at ht
      subst ht
      apply store_refines h ha (by omega) (hs.lower_cell hlt)
      · exact fun t' ht' => ⟨ht', hlt⟩
      · rw [hpc]
        rfl
    · simp only [hpc, if_neg hlt, Option.some.injEq] at ht
      subst ht
      refine refines_quiet ⟨h.rp, h.wp, ?_, h.read, h.counts⟩ ?_
      · rw [show (recvHalves bufSize wp rp buf.length).1.toNat + i =
          min buf.length (free bufSize.toNat rp.toNat wp.toNat) by omega] at ha
        exact ha
      · simp [fifo, hpc, offered]
  | publish buf wp rp =>
    simp only [hpc, Option.some.injEq] at ht
    subst ht
    exact append_refines h hpc

theorem copy_reading {wp rp : UInt32} {out : List UInt8} {pos : ℕ}
    (hr : Reading bufSize.toNat s.transfer wp rp out)
    (hpos : wrap bufSize.toNat (rp.toNat + out.length) = pos) :
    Reading bufSize.toNat s.transfer wp rp (out ++ [s.transfer.data pos]) := by
  subst hpos
  refine ⟨hr.pos, hr.looked, hr.ne, hr.queued, ?_⟩
  rw [List.length_append, List.length_singleton, cells_succ, ← hr.copied]

theorem read_refines (h : Inv bufSize s) {count : ℕ} {wp rp : UInt32} {out : List UInt8}
    (hpc : s.read = .publish count wp rp out) :
    Refines bufSize s { s with
      transfer := { s.transfer with
        rp := readNext bufSize wp rp (readHalves bufSize wp rp count) }
      read := .idle
      delivered := s.delivered ++ [(count,
        (readHalves bufSize wp rp count).1 + (readHalves bufSize wp rp count).2, out)] } := by
  have hread := h.read
  rw [hpc] at hread
  obtain ⟨hr, hlen⟩ := hread
  have hrp := hr.pos
  subst hrp
  have hqueued := hr.queued
  have hs := readHalves_splits hr.looked h.rp hr.ne count
  generalize hh : readHalves bufSize wp s.transfer.rp count = halves at hs ⊢
  generalize ha' : readNext bufSize wp s.transfer.rp halves = after at hs ⊢
  have hafter := hs.after
  rw [← hlen] at hafter
  have hle : out.length ≤ used bufSize.toNat s.transfer.rp.toNat s.transfer.wp.toNat := by omega
  have hcontents := @contents_pop _ _ _ _ _ s.transfer.data h.rp h.wp hle
  have hused := used_pop h.rp h.wp hle
  rw [← hafter] at hcontents hused
  have hout : out = (contents bufSize.toNat s.transfer.data s.transfer.rp.toNat
      s.transfer.wp.toNat).take out.length := by
    rw [contents, cells_take _ _ _ hle]
    exact hr.copied
  have hres : (halves.1 + halves.2).toNat = out.length := by
    have htotal := hs.total
    have := bufSize.toNat_lt
    have := used_lt h.rp h.wp
    rw [UInt32.toNat_add]
    omega
  constructor
  · refine ⟨?_, h.wp, later_appender (by omega) h.recv, trivial, ?_⟩
    · rw [hafter]
      have := h.rp
      have := used_lt h.rp h.wp
      apply wrap_lt
      omega
    · intro c hc
      rcases List.mem_append.mp hc with hc | hc
      · exact h.counts c hc
      · obtain rfl := List.mem_singleton.mp hc
        exact hres
  · refine ⟨[.take], ?_⟩
    simp [BoundedFifo.system, BoundedFifo.next, fifo, hpc, asked, hcontents, ← hlen, ← hout]

theorem readStep_refines (h : Inv bufSize s) (ht : readStep bufSize s = some t) :
    Refines bufSize s t := by
  have hread := h.read
  unfold readStep at ht
  cases hpc : s.read with
  | idle => simp [hpc] at ht
  | readWp count =>
    simp only [hpc, Option.some.injEq] at ht
    subst ht
    refine ⟨⟨h.rp, h.wp, h.recv, ⟨h.wp, le_rfl⟩, h.counts⟩, [.ask count], ?_⟩
    simp [BoundedFifo.system, BoundedFifo.next, fifo, hpc, asked]
  | readRp count wp =>
    rw [hpc] at hread
    by_cases heq : s.transfer.rp = wp
    · simp only [hpc, if_pos heq, Option.some.injEq] at ht
      subst ht heq
      have hzero : used bufSize.toNat s.transfer.rp.toNat s.transfer.rp.toNat = 0 :=
        (used_eq_zero h.rp).mpr rfl
      refine ⟨⟨h.rp, h.wp, h.recv, trivial, ?_⟩, [.take], ?_⟩
      · intro c hc
        rcases List.mem_append.mp hc with hc | hc
        · exact h.counts c hc
        · obtain rfl := List.mem_singleton.mp hc
          rfl
      · simp [BoundedFifo.system, BoundedFifo.next, fifo, hpc, asked, hzero]
    · simp only [hpc, if_neg heq, Option.some.injEq] at ht
      subst ht
      refine refines_quiet ⟨h.rp, h.wp, h.recv, ⟨⟨rfl, hread.1, heq, hread.2, ?_⟩, ?_⟩,
        h.counts⟩ ?_
      · simp [cells]
      · exact Nat.zero_le _
      · simp [fifo, hpc, asked]
  | upper count wp rp out =>
    rw [hpc] at hread
    obtain ⟨hr, hlen⟩ := hread
    have hs := readHalves_splits hr.looked (hr.pos ▸ h.rp) hr.ne count
    by_cases hlt : out.length < (readHalves bufSize wp rp count).1.toNat
    · simp only [hpc, if_pos hlt, Option.some.injEq] at ht
      subst ht
      refine refines_quiet ⟨h.rp, h.wp, h.recv, ⟨copy_reading hr (hs.upper_cell hlt), ?_⟩,
        h.counts⟩ ?_
      · rw [List.length_append, List.length_singleton]
        exact hlt
      · simp [fifo, hpc, asked]
    · simp only [hpc, if_neg hlt, Option.some.injEq] at ht
      subst ht
      refine refines_quiet ⟨h.rp, h.wp, h.recv, ⟨hr, not_lt.mp hlt, by omega⟩, h.counts⟩ ?_
      simp [fifo, hpc, asked]
  | lower count wp rp out =>
    rw [hpc] at hread
    obtain ⟨hr, hlow, hlen⟩ := hread
    have hs := readHalves_splits hr.looked (hr.pos ▸ h.rp) hr.ne count
    have htotal := hs.total
    by_cases hlt : out.length < (readHalves bufSize wp rp count).1.toNat +
        (readHalves bufSize wp rp count).2.toNat
    · simp only [hpc, if_pos hlt, Option.some.injEq] at ht
      subst ht
      have hcell := hs.lower_cell
        (i := out.length - (readHalves bufSize wp rp count).1.toNat) (by omega)
      rw [Nat.add_sub_cancel' hlow] at hcell
      refine refines_quiet ⟨h.rp, h.wp, h.recv, ⟨copy_reading hr hcell, ?_, ?_⟩, h.counts⟩ ?_
      · simp only [List.length_append]
        omega
      · rw [List.length_append, List.length_singleton]
        exact hlt
      · simp [fifo, hpc, asked]
    · simp only [hpc, if_neg hlt, Option.some.injEq] at ht
      subst ht
      refine refines_quiet ⟨h.rp, h.wp, h.recv, ⟨hr, by omega⟩, h.counts⟩ ?_
      simp [fifo, hpc, asked]
  | publish count wp rp out =>
    simp only [hpc, Option.some.injEq] at ht
    subst ht
    exact read_refines h hpc

theorem next_refines {e : Event} (h : Inv bufSize s) (ht : next bufSize s e = some t) :
    Refines bufSize s t := by
  cases e with
  | recvNotify buf =>
    cases hpc : s.recv <;> simp only [next, hpc, Option.some.injEq, reduceCtorEq] at ht
    subst ht
    by_cases hbuf : buf = []
    · rw [if_pos hbuf]
      exact refines_quiet h rfl
    · rw [if_neg hbuf]
      exact refines_quiet ⟨h.rp, h.wp, trivial, h.read, h.counts⟩ (by simp [fifo, hpc, offered])
  | recv => exact recvStep_refines h ht
  | read count =>
    cases hpc : s.read <;> simp only [next, hpc, Option.some.injEq, reduceCtorEq] at ht
    subst ht
    by_cases hcount : count = 0
    · rw [if_pos hcount]
      exact refines_quiet h rfl
    · rw [if_neg hcount]
      exact refines_quiet ⟨h.rp, h.wp, h.recv, trivial, h.counts⟩ (by simp [fifo, hpc, asked])
  | reader => exact readStep_refines h ht

theorem simulation (bufSize : UInt32) :
    Simulation (system bufSize) (fun _ _ => True) (Inv bufSize)
      (BoundedFifo.system UInt8 (bufSize.toNat - 1)) (fun _ _ => True) (fifo bufSize) := by
  constructor
  · intro s h
    constructor <;> simp [fifo, h.rp, h.wp, h.recv, h.read, h.received, h.delivered, contents,
      cells, used, offered, asked]
  · intro s e t h _ ht
    obtain ⟨-, ds, hds⟩ := next_refines h ht
    exact ⟨ds, stepsMeet_true _ _ _, hds⟩

theorem reachable_inv (hb : 2 ≤ bufSize.toNat) (h : Reachable (system bufSize) s) :
    Inv bufSize s :=
  Reachable.invariant (I := Inv bufSize) (fun _ => init_inv hb)
    (fun _ _ _ hI ht => (next_refines hI ht).1) h

/-- The driver's state is one that the queue of capacity `BUF_SIZE - 1` reaches with the same
calls and the same answers. -/
structure IsFifo (bufSize : UInt32) (s : State) : Prop where
  rp : s.transfer.rp < bufSize
  wp : s.transfer.wp < bufSize
  reachable : Reachable (BoundedFifo.system UInt8 (bufSize.toNat - 1)) (fifo bufSize s)
  safety : BoundedFifo.Safety (bufSize.toNat - 1) (fifo bufSize s)
  counts : ∀ c ∈ s.delivered, c.2.1.toNat = c.2.2.length
  empty : uartRxBufEmpty s = true ↔ (fifo bufSize s).queue = []
  full : (recvHalves bufSize s.transfer.wp s.transfer.rp 1).1 = 0 ↔
    (fifo bufSize s).queue.length = bufSize.toNat - 1

theorem ring_is_fifo {bufSize : UInt32} (hb : 2 ≤ bufSize.toNat) {s : State}
    (h : Reachable (system bufSize) s) : IsFifo bufSize s := by
  have hI := reachable_inv hb h
  have hfifo := (simulation bufSize).reachable (fun s hs => reachable_inv hb hs) h
  have hlen : (fifo bufSize s).queue.length =
      used bufSize.toNat s.transfer.rp.toNat s.transfer.wp.toNat := by simp [fifo]
  refine ⟨UInt32.lt_iff_toNat_lt.mpr hI.rp, UInt32.lt_iff_toNat_lt.mpr hI.wp, hfifo,
    BoundedFifo.reachable_safety hfifo, hI.counts, ?_, ?_⟩
  · rw [← List.length_eq_zero_iff, hlen, used_eq_zero hI.rp, UInt32.toNat_inj]
    rw [uartRxBufEmpty, beq_iff_eq]
    exact eq_comm
  · have hs := recvHalves_splits hI.wp hI.rp 1
    have htotal := hs.total
    have hlower := hs.lower
    have hlt := used_lt hI.rp hI.wp
    have := hI.wp
    rw [hlen, ← UInt32.toNat_inj, UInt32.toNat_zero]
    unfold free at htotal
    omega

/-- In a ring of 4: three bytes go in, two come out while an append that finds no room runs in
the middle of the read, and the last append and read go round the end. -/
def wrapped : List Event :=
  [Event.recvNotify [1, 2, 3, 4]] ++ List.replicate 8 Event.recv ++
  [Event.read 2, .reader, .reader, .recvNotify [5]] ++ List.replicate 5 Event.recv ++
  List.replicate 5 Event.reader ++ [Event.recvNotify [6, 7]] ++ List.replicate 7 Event.recv ++
  [Event.read 9] ++ List.replicate 8 Event.reader

theorem ring_is_fifo_wrapped : ∃ s, (system 4).run zeroed wrapped = some s ∧
    s.delivered = [(2, 2, [1, 2]), (9, 3, [3, 6, 7])] ∧ IsFifo 4 s := by
  have hrun : ((system 4).run zeroed wrapped).map (fun s => s.delivered) =
      some [(2, 2, [1, 2]), (9, 3, [3, 6, 7])] := by decide +kernel
  obtain ⟨s, hs, hdelivered⟩ := Option.map_eq_some_iff.mp hrun
  exact ⟨s, hs, hdelivered, ring_is_fifo (by decide) (Reachable.run (.init init_zeroed) hs)⟩

end UartPl011Fifo
