import DeviceQemu.UartPl011Fifo

/-! The receive interrupt.
Pl011Irq drains the hardware FIFO into a local array and gives the array to PL011UartRecvNotify. A
magic key ends the interrupt at once, and the array is not given to anybody. -/
namespace UartIrq

open CircularBuffer UartPl011 UartPl011Fifo

def fifoSize : ℕ := 128

/-- The array of Pl011Irq, what the hardware FIFO has left, and whether a magic key was seen. -/
structure Drained where
  buf : List UInt8
  fifo : List UInt8
  magicKey : Bool
  deriving DecidableEq, Repr

/-- The do loop, with room for `n` more bytes. CheckMagicKey may answer by the position of the byte. -/
def drain (console : Bool) (checkMagicKey : ℕ → UInt8 → Bool) :
    ℕ → List UInt8 → List UInt8 → Drained
  | 0, buf, fifo => ⟨buf, fifo, false⟩
  | _ + 1, buf, [] => ⟨buf, [], false⟩
  | n + 1, buf, x :: fifo =>
    if console = false then drain console checkMagicKey n (buf ++ [x]) fifo
    else if checkMagicKey buf.length x then ⟨buf ++ [x], fifo, true⟩
    else drain console checkMagicKey n (buf ++ [x]) fifo

def memcpy (data : ℕ → UInt8) (pos : ℕ) : List UInt8 → ℕ → UInt8
  | [] => data
  | x :: xs => memcpy (Function.update data pos x) (pos + 1) xs

def uartRecvNotify (bufSize : UInt32) (t : UartTransfer) (buf : List UInt8) : UartTransfer :=
  if buf = [] then t
  else
    let halves := recvHalves bufSize t.wp t.rp buf.length
    let upper := buf.take halves.1.toNat
    let lower := (buf.drop halves.1.toNat).take halves.2.toNat
    ⟨t.rp, recvNext bufSize t.wp t.rp halves, memcpy (memcpy t.data t.wp.toNat upper) 0 lower⟩

structure Port where
  fifo : List UInt8
  transfer : UartTransfer

/-- `console` is `udd->num == CONSOLE_UART`, and `pending` whether UART_MIS has a receive interrupt. -/
def pl011Irq (bufSize : UInt32) (console : Bool) (checkMagicKey : ℕ → UInt8 → Bool) (pending : Bool)
    (p : Port) : Port :=
  if pending then
    let d := drain console checkMagicKey fifoSize [] p.fifo
    if d.magicKey then { p with fifo := d.fifo }
    else ⟨d.fifo, uartRecvNotify bufSize p.transfer d.buf⟩
  else p

def queue (bufSize : UInt32) (t : UartTransfer) : List UInt8 :=
  contents bufSize.toNat t.data t.rp.toNat t.wp.toNat

def freeSpace (bufSize : UInt32) (t : UartTransfer) : ℕ := free bufSize.toNat t.rp.toNat t.wp.toNat

structure InRing (bufSize : UInt32) (t : UartTransfer) : Prop where
  rp : t.rp.toNat < bufSize.toNat
  wp : t.wp.toNat < bufSize.toNat

/-- The bytes, the `k`-th and those after it, that the magic-key check lets pass. -/
def unconsumed (magic : ℕ → UInt8 → Bool) : ℕ → List UInt8 → List UInt8
  | _, [] => []
  | k, x :: xs => if magic k x then unconsumed magic (k + 1) xs else x :: unconsumed magic (k + 1) xs

/-- The bytes that the interrupt took out of the FIFO. -/
def taken (p q : Port) : List UInt8 := p.fifo.take (p.fifo.length - q.fifo.length)

/-- What is taken out and not consumed is appended, as far as there is room. -/
structure Conserves (bufSize : UInt32) (magic : ℕ → UInt8 → Bool) (p q : Port) : Prop where
  drained : p.fifo = taken p q ++ q.fifo
  appended : queue bufSize q.transfer = queue bufSize p.transfer ++
    (unconsumed magic 0 (taken p q)).take (freeSpace bufSize p.transfer)

theorem memcpy_upper {b p k : ℕ} {xs : List UInt8} (h : p + k + xs.length ≤ b)
    (data : ℕ → UInt8) : memcpy data (p + k) xs = storeFrom b p k xs data := by
  induction xs generalizing k data with
  | nil => rfl
  | cons x xs ih =>
    rw [List.length_cons] at h
    have hcell : wrap b (p + k) = p + k := if_pos (by omega)
    have hrest := @ih (k + 1) (by omega)
    unfold memcpy storeFrom
    rw [hcell, Nat.add_assoc]
    exact hrest _

theorem memcpy_lower {b p n j : ℕ} {xs : List UInt8} (h : p + n = b) (data : ℕ → UInt8) :
    memcpy data j xs = storeFrom b p (n + j) xs data := by
  induction xs generalizing j data with
  | nil => rfl
  | cons x xs ih =>
    have hcell : wrap b (p + (n + j)) = j := by
      unfold wrap
      split_ifs <;> omega
    have hrest := @ih (j + 1)
    unfold memcpy storeFrom
    rw [hcell, Nat.add_assoc]
    exact hrest _

theorem memcpy_halves {b p n : ℕ} {halves : UInt32 × UInt32} {after : UInt32}
    (h : Splits b p n halves after) {buf : List UInt8} (hn : n ≤ buf.length) (data : ℕ → UInt8) :
    memcpy (memcpy data p (buf.take halves.1.toNat)) 0
      ((buf.drop halves.1.toNat).take halves.2.toNat) = storeFrom b p 0 (buf.take n) data := by
  have htotal := h.total
  have hupper := h.upper
  have hlength : (buf.take halves.1.toNat).length = halves.1.toNat := by
    rw [List.length_take]
    omega
  have hsplit : buf.take n
      = buf.take halves.1.toNat ++ (buf.drop halves.1.toNat).take halves.2.toNat := by
    rw [← htotal, List.take_add]
  have hfirst := @memcpy_upper b p 0 (buf.take halves.1.toNat) (by omega) data
  rw [Nat.add_zero] at hfirst
  rw [hsplit, storeFrom_append, hlength, Nat.zero_add, hfirst]
  by_cases hlower : 0 < halves.2.toNat
  · exact memcpy_lower (h.lower hlower) _
  · obtain hzero : halves.2.toNat = 0 := by omega
    rw [hzero, List.take_zero]
    rfl

theorem uartRecvNotify_queue {bufSize : UInt32} {t : UartTransfer} (h : InRing bufSize t)
    (buf : List UInt8) : queue bufSize (uartRecvNotify bufSize t buf)
      = queue bufSize t ++ buf.take (freeSpace bufSize t) := by
  unfold uartRecvNotify
  by_cases hbuf : buf = []
  · rw [if_pos hbuf, hbuf, List.take_nil, List.append_nil]
  · rw [if_neg hbuf]
    have hs := recvHalves_splits h.wp h.rp buf.length
    have hroom : min buf.length (free bufSize.toNat t.rp.toNat t.wp.toNat)
        ≤ free bufSize.toNat t.rp.toNat t.wp.toNat := Nat.min_le_right _ _
    have htake : buf.take (min buf.length (free bufSize.toNat t.rp.toNat t.wp.toNat))
        = buf.take (freeSpace bufSize t) := by
      rw [Nat.min_comm, ← List.take_take, List.take_length]
      rfl
    have hlength : (buf.take (freeSpace bufSize t)).length
        = min buf.length (free bufSize.toNat t.rp.toNat t.wp.toNat) := by
      rw [← htake, List.length_take]
      omega
    have hstored := @storeFrom_spec _ _ _ _ t.data h.rp h.wp 0 (buf.take (freeSpace bufSize t))
      (by omega)
    dsimp only [queue]
    rw [memcpy_halves hs (Nat.min_le_left _ _), htake, hs.after, contents_push h.rp h.wp hroom,
      hstored.1, ← hlength]
    have hcells := hstored.2
    rw [Nat.zero_add] at hcells
    rw [hcells]
    rfl

/-- None of the first `n` bytes is a magic key. -/
def NoMagic (magic : ℕ → UInt8 → Bool) (n k : ℕ) (fifo : List UInt8) : Prop :=
  ∀ i < n, ∀ x, fifo[i]? = some x → magic (k + i) x = false

theorem noMagic_cons {magic : ℕ → UInt8 → Bool} {n k : ℕ} {x : UInt8} {fifo : List UInt8} :
    NoMagic magic (n + 1) k (x :: fifo) ↔ magic k x = false ∧ NoMagic magic n (k + 1) fifo := by
  constructor
  · intro h
    refine ⟨h 0 (Nat.succ_pos n) x rfl, fun i hi y hy => ?_⟩
    rw [Nat.add_assoc, Nat.add_comm 1 i]
    exact h (i + 1) (Nat.succ_lt_succ hi) y hy
  · rintro ⟨hhead, htail⟩ i hi y hy
    cases i with
    | zero =>
      obtain rfl := Option.some.inj hy
      exact hhead
    | succ i =>
      have h := htail i (Nat.lt_of_succ_lt_succ hi) y hy
      rwa [Nat.add_assoc, Nat.add_comm 1 i] at h

theorem unconsumed_of_noMagic {magic : ℕ → UInt8 → Bool} {k : ℕ} {xs : List UInt8}
    (h : NoMagic magic xs.length k xs) : unconsumed magic k xs = xs := by
  induction xs generalizing k with
  | nil => rfl
  | cons x xs ih =>
    obtain ⟨hhead, htail⟩ := noMagic_cons.mp h
    rw [unconsumed, if_neg (by simp [hhead]), ih htail]

theorem drain_of_not_console {magic : ℕ → UInt8 → Bool} {n : ℕ} {buf fifo : List UInt8} :
    drain false magic n buf fifo = ⟨buf ++ fifo.take n, fifo.drop n, false⟩ := by
  induction n generalizing buf fifo with
  | zero => simp [drain]
  | succ n ih =>
    cases fifo with
    | nil => simp [drain]
    | cons x fifo =>
      have hrest := @ih (buf ++ [x]) fifo
      rw [List.append_assoc] at hrest
      exact hrest

/-- On the console the loop takes what there is room for, or stops behind the first magic key. -/
theorem drain_cases {magic : ℕ → UInt8 → Bool} {n : ℕ} {buf fifo : List UInt8} :
    NoMagic magic n buf.length fifo ∧
      drain true magic n buf fifo = ⟨buf ++ fifo.take n, fifo.drop n, false⟩ ∨
    ∃ i < n, NoMagic magic i buf.length fifo ∧ (∃ x, fifo[i]? = some x ∧
      magic (buf.length + i) x = true) ∧
      drain true magic n buf fifo = ⟨buf ++ fifo.take (i + 1), fifo.drop (i + 1), true⟩ := by
  induction n generalizing buf fifo with
  | zero => exact Or.inl ⟨fun i hi => absurd hi (Nat.not_lt_zero i), by simp [drain]⟩
  | succ n ih =>
    cases fifo with
    | nil => exact Or.inl ⟨fun i _ x hx => absurd hx (by simp), by simp [drain]⟩
    | cons x fifo =>
      by_cases hmagic : magic buf.length x = true
      · refine Or.inr ⟨0, Nat.succ_pos n, fun i hi => absurd hi (Nat.not_lt_zero i), ?_, ?_⟩
        · exact ⟨x, rfl, hmagic⟩
        · simp [drain, hmagic]
      · have hfalse : magic buf.length x = false := by simpa using hmagic
        have hstep : drain true magic (n + 1) buf (x :: fifo)
            = drain true magic n (buf ++ [x]) fifo := by
          simp [drain, hfalse]
        have hlength : (buf ++ [x]).length = buf.length + 1 := by simp
        rw [hstep]
        rcases @ih (buf ++ [x]) fifo with ⟨hnone, hall⟩ | ⟨i, hi, hnone, ⟨y, hy, hkey⟩, hstop⟩
        · rw [hlength] at hnone
          rw [hall, List.append_assoc]
          exact Or.inl ⟨noMagic_cons.mpr ⟨hfalse, hnone⟩, rfl⟩
        · rw [hlength] at hnone hkey
          rw [hstop, List.append_assoc]
          refine Or.inr ⟨i + 1, Nat.succ_lt_succ hi, noMagic_cons.mpr ⟨hfalse, hnone⟩, ⟨y, hy, ?_⟩, rfl⟩
          rwa [Nat.add_assoc, Nat.add_comm 1 i] at hkey

theorem unconsumed_take {magic : ℕ → UInt8 → Bool} {k i : ℕ} {xs : List UInt8} {x : UInt8}
    (hnone : NoMagic magic i k xs) (hx : xs[i]? = some x) (hkey : magic (k + i) x = true) :
    unconsumed magic k (xs.take (i + 1)) = xs.take i := by
  induction i generalizing k xs with
  | zero =>
    cases xs with
    | nil => cases hx
    | cons y ys =>
      obtain rfl := Option.some.inj hx
      rw [Nat.add_zero] at hkey
      simp [unconsumed, hkey]
  | succ i ih =>
    cases xs with
    | nil => cases hx
    | cons y ys =>
      obtain ⟨hhead, htail⟩ := noMagic_cons.mp hnone
      rw [Nat.add_comm i 1, ← Nat.add_assoc] at hkey
      have hrest := ih htail hx hkey
      rw [List.take_succ_cons, List.take_succ_cons, unconsumed, if_neg (by simp [hhead]), hrest]

section Irq

variable {bufSize : UInt32} {console pending : Bool} {checkMagicKey : ℕ → UInt8 → Bool} {p : Port}

def magicKeys (console : Bool) (checkMagicKey : ℕ → UInt8 → Bool) (k : ℕ) (x : UInt8) : Bool :=
  console && checkMagicKey k x

theorem taken_drop (n : ℕ) (t : UartTransfer) :
    taken p ⟨p.fifo.drop n, t⟩ = p.fifo.take n := by
  unfold taken
  rw [List.length_drop]
  by_cases hn : n ≤ p.fifo.length
  · rw [Nat.sub_sub_self hn]
  · rw [List.take_of_length_le (by omega), List.take_of_length_le (by omega)]

theorem irq_quiet : pl011Irq bufSize console checkMagicKey false p = p := rfl

/-- An interrupt that hands over `n` bytes, none of them a magic key, conserves them. -/
theorem conserves_of_noMagic (h : InRing bufSize p.transfer) {n : ℕ}
    (hnone : NoMagic (magicKeys console checkMagicKey) n 0 p.fifo) :
    Conserves bufSize (magicKeys console checkMagicKey) p
      ⟨p.fifo.drop n, uartRecvNotify bufSize p.transfer (p.fifo.take n)⟩ := by
  constructor
  · rw [taken_drop, List.take_append_drop]
  · rw [taken_drop, uartRecvNotify_queue h, unconsumed_of_noMagic]
    intro i hi x hx
    refine hnone i ?_ x ?_
    · exact hi.trans_le (List.length_take_le _ _)
    · rwa [List.getElem?_take_of_lt (hi.trans_le (List.length_take_le _ _))] at hx

theorem conserves_of_other (h : InRing bufSize p.transfer) :
    Conserves bufSize (magicKeys false checkMagicKey) p
      (pl011Irq bufSize false checkMagicKey true p) := by
  have hirq : pl011Irq bufSize false checkMagicKey true p
      = ⟨p.fifo.drop fifoSize, uartRecvNotify bufSize p.transfer (p.fifo.take fifoSize)⟩ := by
    simp [pl011Irq, drain_of_not_console]
  rw [hirq]
  exact conserves_of_noMagic h fun i _ x _ => rfl

/-- A magic key at position `i` costs the bytes before it, unless there is no room for any. -/
theorem conserves_of_magic_iff {i : ℕ}
    (hnone : NoMagic checkMagicKey i 0 p.fifo) {x : UInt8} (hx : p.fifo[i]? = some x)
    (hkey : checkMagicKey i x = true) :
    Conserves bufSize (magicKeys true checkMagicKey) p { p with fifo := p.fifo.drop (i + 1) } ↔
      i = 0 ∨ freeSpace bufSize p.transfer = 0 := by
  have hlt : i < p.fifo.length := (List.getElem?_eq_some_iff.mp hx).1
  have hkept : unconsumed (magicKeys true checkMagicKey) 0 (p.fifo.take (i + 1))
      = p.fifo.take i :=
    unconsumed_take hnone hx (by rwa [Nat.zero_add])
  have hlost : (p.fifo.take i).take (freeSpace bufSize p.transfer) = [] ↔
      i = 0 ∨ freeSpace bufSize p.transfer = 0 := by
    rw [← List.length_eq_zero_iff, List.length_take, List.length_take]
    omega
  rw [← hlost]
  constructor
  · intro hc
    have happended := hc.appended
    rw [taken_drop, hkept] at happended
    exact List.self_eq_append_right.mp happended
  · intro hnil
    constructor
    · rw [taken_drop, List.take_append_drop]
    · rw [taken_drop, hkept, hnil, List.append_nil]

/-- The interrupt conserves what it receives unless a magic key comes behind other bytes. -/
theorem irq_conserves_iff (h : InRing bufSize p.transfer) :
    Conserves bufSize (magicKeys console checkMagicKey) p
        (pl011Irq bufSize console checkMagicKey pending p) ↔
      pending = false ∨ console = false ∨ freeSpace bufSize p.transfer = 0 ∨
        NoMagic checkMagicKey fifoSize 0 p.fifo ∨
        ∃ x, p.fifo.head? = some x ∧ checkMagicKey 0 x = true := by
  cases pending with
  | false =>
    refine iff_of_true ?_ (Or.inl rfl)
    have htaken : taken p p = [] := by
      rw [taken, Nat.sub_self, List.take_zero]
    rw [irq_quiet]
    exact ⟨by rw [htaken, List.nil_append], by rw [htaken]; simp [unconsumed]⟩
  | true =>
    cases console with
    | false => exact iff_of_true (conserves_of_other h) (Or.inr (Or.inl rfl))
    | true =>
      rcases @drain_cases checkMagicKey fifoSize [] p.fifo with
        ⟨hnone, hall⟩ | ⟨i, hi, hnone, ⟨x, hx, hkey⟩, hstop⟩
      · have hirq : pl011Irq bufSize true checkMagicKey true p
            = ⟨p.fifo.drop fifoSize, uartRecvNotify bufSize p.transfer (p.fifo.take fifoSize)⟩ := by
          simp [pl011Irq, hall]
        rw [hirq]
        refine iff_of_true (conserves_of_noMagic h hnone) ?_
        exact Or.inr (Or.inr (Or.inr (Or.inl hnone)))
      · have hirq : pl011Irq bufSize true checkMagicKey true p
            = { p with fifo := p.fifo.drop (i + 1) } := by
          simp [pl011Irq, hstop]
        rw [List.length_nil, Nat.zero_add] at hkey
        rw [hirq, conserves_of_magic_iff hnone hx hkey]
        constructor
        · rintro (rfl | hfull)
          · rw [← List.head?_eq_getElem?] at hx
            exact Or.inr (Or.inr (Or.inr (Or.inr ⟨x, hx, hkey⟩)))
          · exact Or.inr (Or.inr (Or.inl hfull))
        · rintro (hfalse | hfalse | hfull | hclear | ⟨y, hy, hhead⟩)
          · exact absurd hfalse.symm Bool.false_ne_true
          · exact absurd hfalse.symm Bool.false_ne_true
          · exact Or.inr hfull
          · have hnot := hclear i hi x hx
            rw [Nat.zero_add, hkey] at hnot
            exact absurd hnot.symm Bool.false_ne_true
          · refine Or.inl (Nat.eq_zero_of_not_pos fun hpos => ?_)
            rw [List.head?_eq_getElem?] at hy
            have hnot := hnone 0 hpos y hy
            rw [List.length_nil, Nat.zero_add, hhead] at hnot
            exact absurd hnot.symm Bool.false_ne_true

end Irq

def waiting : Port := ⟨[0x61, 0x03], ⟨0, 0, fun _ => 0⟩⟩

def ctrlC (_ : ℕ) (x : UInt8) : Bool := x = 0x03

theorem irq_conserves_waiting :
    Conserves 0x4000 (magicKeys true fun _ _ => false) waiting
      (pl011Irq 0x4000 true (fun _ _ => false) true waiting) := by
  have hring : InRing 0x4000 waiting.transfer := ⟨by decide, by decide⟩
  refine (irq_conserves_iff hring).mpr ?_
  exact Or.inr (Or.inr (Or.inr (Or.inl fun i _ x _ => rfl)))

/-- The byte before the magic key is gone. -/
theorem byte_before_key_lost :
    (pl011Irq 0x4000 true ctrlC true waiting).fifo = [] ∧
      queue 0x4000 (pl011Irq 0x4000 true ctrlC true waiting).transfer = [] ∧
      unconsumed (magicKeys true ctrlC) 0 waiting.fifo = [0x61] ∧
      ¬ Conserves 0x4000 (magicKeys true ctrlC) waiting (pl011Irq 0x4000 true ctrlC true waiting) := by
  refine ⟨by decide, by decide, by decide, fun h => ?_⟩
  have hlength := congrArg List.length h.appended
  exact absurd hlength (by decide)

end UartIrq
