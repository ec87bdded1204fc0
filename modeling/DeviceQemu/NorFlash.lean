import Mathlib.Data.Nat.Basic
import Mathlib.Logic.Function.Basic

/-! NOR flash behind the Intel command set.
Programming only clears bits and erasing sets every bit of a block. A command the chip does
not expect, or that leaves its page, its block or the chip, is a fault, and faults stay. -/
namespace NorFlash

structure Geometry where
  words : ℕ
  pageWords : ℕ
  blockWords : ℕ
  page_pos : 0 < pageWords
  block_pos : 0 < blockWords
  page_dvd_block : pageWords ∣ blockWords
  block_dvd_words : blockWords ∣ words

inductive Mode where
  | readArray
  | readStatus
  | bufferCount (block : ℕ)
  /-- `left` words follow the next one. -/
  | bufferData (block left : ℕ) (loaded : List (ℕ × UInt32))
  | bufferConfirm (block : ℕ) (loaded : List (ℕ × UInt32))
  | eraseConfirm (block : ℕ)
  | fault
  deriving DecidableEq

/-- `busy` polls still find the chip not ready; the operation number `k` takes `delays k` of
them. `programs` is the history of the buffered programs. -/
structure Chip where
  mem : ℕ → UInt32
  mode : Mode
  busy : ℕ
  delays : ℕ → ℕ
  started : ℕ
  programs : List (List (ℕ × UInt32))

def cmdErase : UInt32 := 0x20
def cmdClearStatus : UInt32 := 0x50
def cmdReadStatus : UInt32 := 0x70
def cmdConfirm : UInt32 := 0xD0
def cmdBufferProgram : UInt32 := 0xE8
def cmdReset : UInt32 := 0xFF

def ready : UInt32 := 0x80

def erased : UInt32 := 0xFFFFFFFF

def programWords (mem : ℕ → UInt32) : List (ℕ × UInt32) → ℕ → UInt32
  | [] => mem
  | (a, v) :: ws => programWords (Function.update mem a (mem a &&& v)) ws

def eraseBlock (g : Geometry) (mem : ℕ → UInt32) (block : ℕ) (a : ℕ) : UInt32 :=
  if a / g.blockWords = block then erased else mem a

def Chip.command (g : Geometry) (c : Chip) (a : ℕ) (v : UInt32) : Chip :=
  if v = cmdReset ∨ v = cmdClearStatus then { c with mode := .readArray }
  else if v = cmdReadStatus then { c with mode := .readStatus }
  else if v = cmdBufferProgram then { c with mode := .bufferCount (a / g.blockWords) }
  else if v = cmdErase then { c with mode := .eraseConfirm (a / g.blockWords) }
  else { c with mode := .fault }

/-- The internal operation begins: only its status can be asked for until it is done. -/
def Chip.start (c : Chip) (mem : ℕ → UInt32) : Chip :=
  { c with mem, mode := .readStatus, busy := c.delays c.started, started := c.started + 1 }

def Mode.loaded (block : ℕ) : ℕ → List (ℕ × UInt32) → Mode
  | 0, ws => .bufferConfirm block ws
  | left + 1, ws => .bufferData block left ws

def Chip.load (g : Geometry) (c : Chip) (block left : ℕ) (loaded : List (ℕ × UInt32))
    (a : ℕ) (v : UInt32) : Chip :=
  if a / g.blockWords = block ∧ ∀ x ∈ loaded, x.1 / g.pageWords = a / g.pageWords then
    { c with mode := .loaded block left (loaded ++ [(a, v)]) }
  else { c with mode := .fault }

def Chip.write (g : Geometry) (c : Chip) (a : ℕ) (v : UInt32) : Chip :=
  if g.words ≤ a then { c with mode := .fault }
  else if 0 < c.busy then
    if v = cmdReadStatus then c else { c with mode := .fault }
  else
    match c.mode with
    | .readArray => c.command g a v
    | .readStatus => c.command g a v
    | .bufferCount block =>
      if a / g.blockWords = block ∧ v.toNat < g.pageWords then
        { c with mode := .bufferData block v.toNat [] }
      else { c with mode := .fault }
    | .bufferData block left loaded => c.load g block left loaded a v
    | .bufferConfirm block loaded =>
      if a / g.blockWords = block ∧ v = cmdConfirm then
        { c.start (programWords c.mem loaded) with programs := c.programs ++ [loaded] }
      else { c with mode := .fault }
    | .eraseConfirm block =>
      if a / g.blockWords = block ∧ v = cmdConfirm then c.start (eraseBlock g c.mem block)
      else { c with mode := .fault }
    | .fault => c

def Chip.read (g : Geometry) (c : Chip) (a : ℕ) : UInt32 × Chip :=
  if g.words ≤ a then (0, { c with mode := .fault })
  else
    match c.mode with
    | .readArray => (c.mem a, c)
    | .fault => (0, c)
    | _ => (if c.busy = 0 then ready else 0, { c with busy := c.busy - 1 })

inductive Access where
  | read (a : ℕ)
  | write (a : ℕ) (v : UInt32)

def Access.address : Access → ℕ
  | .read a => a
  | .write a _ => a

def Chip.access (g : Geometry) (c : Chip) : Access → Chip
  | .read a => (c.read g a).2
  | .write a v => c.write g a v

/-- The chip takes commands: no command is half given and nothing is going on inside. -/
structure Chip.Idle (c : Chip) : Prop where
  mode : c.mode = .readArray ∨ c.mode = .readStatus
  busy : c.busy = 0

variable {g : Geometry} {c : Chip} {a : ℕ}

theorem Chip.Idle.write (h : c.Idle) (ha : a < g.words) (v : UInt32) :
    c.write g a v = c.command g a v := by
  have hb := h.busy
  rcases h.mode with hm | hm <;> simp [Chip.write, hm, hb, Nat.not_le.mpr ha]

theorem write_readStatus (hm : c.mode = .readStatus) (ha : a < g.words) :
    c.write g a cmdReadStatus = c := by
  by_cases hb : 0 < c.busy
  · simp [Chip.write, Nat.not_le.mpr ha, hb]
  · simp only [Chip.write, Nat.not_le.mpr ha, hb, hm, if_false]
    cases c
    subst hm
    rfl

theorem read_readStatus (hm : c.mode = .readStatus) (ha : a < g.words) :
    c.read g a = (if c.busy = 0 then ready else 0, { c with busy := c.busy - 1 }) := by
  simp [Chip.read, Nat.not_le.mpr ha, hm]

theorem read_readArray (hm : c.mode = .readArray) (ha : a < g.words) :
    c.read g a = (c.mem a, c) := by
  simp [Chip.read, Nat.not_le.mpr ha, hm]

theorem Chip.Idle.erase (h : c.Idle) (ha : a < g.words) :
    (c.write g a cmdErase).write g a cmdConfirm =
      c.start (eraseBlock g c.mem (a / g.blockWords)) := by
  rw [h.write ha]
  have hb := h.busy
  have hc : c.command g a cmdErase = { c with mode := .eraseConfirm (a / g.blockWords) } := rfl
  rw [hc]
  simp [Chip.write, Nat.not_le.mpr ha, hb, Chip.start]

theorem Chip.Idle.clearStatus (h : c.Idle) (ha : a < g.words) :
    c.write g a cmdClearStatus = { c with mode := .readArray } := by
  rw [h.write ha]
  rfl

theorem access_fault (h : c.mode = .fault) (x : Access) : (c.access g x).mode = .fault := by
  cases x with
  | read a =>
    by_cases ha : g.words ≤ a
    · simp [Chip.access, Chip.read, ha]
    · simp [Chip.access, Chip.read, ha, h]
  | write a v =>
    simp only [Chip.access, Chip.write, h]
    split
    · rfl
    · split
      · split
        · exact h
        · rfl
      · exact h

theorem read_fault (h : c.mode = .fault) (a : ℕ) : (c.read g a).1 = 0 := by
  by_cases ha : g.words ≤ a
  · simp [Chip.read, ha]
  · simp [Chip.read, ha, h]

theorem access_outside {x : Access} (h : g.words ≤ x.address) : (c.access g x).mode = .fault := by
  cases x with
  | read a => simp [Chip.access, Chip.read, show g.words ≤ a from h]
  | write a v => simp [Chip.access, Chip.write, show g.words ≤ a from h]

theorem accesses_fault {xs : List Access} (h : c.mode = .fault) :
    (xs.foldl (Chip.access g) c).mode = .fault := by
  induction xs generalizing c with
  | nil => exact h
  | cons x xs ih => exact ih (access_fault h x)

theorem inside_of_accesses {xs : List Access} (h : (xs.foldl (Chip.access g) c).mode ≠ .fault) :
    ∀ x ∈ xs, x.address < g.words := by
  induction xs generalizing c with
  | nil => simp
  | cons x xs ih =>
    intro y hy
    rw [List.foldl_cons] at h
    rcases List.mem_cons.mp hy with rfl | hy
    · by_contra hout
      have hfault : (c.access g y).mode = .fault := access_outside (Nat.le_of_not_lt hout)
      exact h (accesses_fault hfault)
    · exact ih h y hy

def addressed : ℕ → List UInt32 → List (ℕ × UInt32)
  | _, [] => []
  | o, w :: ws => (o, w) :: addressed (o + 1) ws

@[simp] theorem length_addressed (o : ℕ) (ws : List UInt32) :
    (addressed o ws).length = ws.length := by
  induction ws generalizing o with
  | nil => rfl
  | cons w ws ih => simp [addressed, ih]

theorem mem_addressed {o : ℕ} {ws : List UInt32} {x : ℕ × UInt32} (h : x ∈ addressed o ws) :
    o ≤ x.1 ∧ x.1 < o + ws.length := by
  induction ws generalizing o with
  | nil => simp [addressed] at h
  | cons w ws ih =>
    rcases List.mem_cons.mp h with rfl | h
    · simp
    · have := ih h
      simp only [List.length_cons]
      omega

theorem programWords_below (mem : ℕ → UInt32) {o a : ℕ} (ws : List UInt32) (h : a < o) :
    programWords mem (addressed o ws) a = mem a := by
  induction ws generalizing o mem with
  | nil => rfl
  | cons w ws ih =>
    simp only [addressed, programWords]
    rw [ih _ (by omega), Function.update_of_ne (by omega)]

theorem programWords_addressed (mem : ℕ → UInt32) (o : ℕ) (ws : List UInt32) (a : ℕ) :
    programWords mem (addressed o ws) a =
      if o ≤ a ∧ a < o + ws.length then mem a &&& ws.getD (a - o) 0 else mem a := by
  induction ws generalizing o mem with
  | nil =>
    rw [if_neg (by simp only [List.length_nil]; omega)]
    rfl
  | cons w ws ih =>
    simp only [addressed, programWords, List.length_cons]
    by_cases he : a = o
    · subst he
      rw [programWords_below _ _ (by omega), if_pos (by omega)]
      simp
    · rw [ih, Function.update_of_ne he]
      by_cases hin : o + 1 ≤ a ∧ a < o + 1 + ws.length
      · rw [if_pos hin, if_pos (by omega), show a - o = a - (o + 1) + 1 by omega]
        simp
      · rw [if_neg hin, if_neg (by omega)]

theorem addressed_append (o : ℕ) (ws rest : List UInt32) :
    addressed o (ws ++ rest) = addressed o ws ++ addressed (o + ws.length) rest := by
  induction ws generalizing o with
  | nil => rfl
  | cons w ws ih =>
    simp only [List.cons_append, addressed, ih, List.length_cons]
    rw [show o + 1 + ws.length = o + (ws.length + 1) by omega]

theorem programWords_append (mem : ℕ → UInt32) (ws rest : List (ℕ × UInt32)) :
    programWords mem (ws ++ rest) = programWords (programWords mem ws) rest := by
  induction ws generalizing mem with
  | nil => rfl
  | cons w ws ih => exact ih _

def Chip.writeFrom (g : Geometry) (c : Chip) : ℕ → List UInt32 → Chip
  | _, [] => c
  | o, w :: ws => (c.write g o w).writeFrom g (o + 1) ws

theorem load_data {o block left : ℕ} {loaded : List (ℕ × UInt32)} {w : UInt32}
    (hm : c.mode = .bufferData block left loaded) (hb : c.busy = 0) (ho : o < g.words)
    (hblk : o / g.blockWords = block)
    (hpage : ∀ x ∈ loaded, x.1 / g.pageWords = o / g.pageWords) :
    c.write g o w = { c with mode := .loaded block left (loaded ++ [(o, w)]) } := by
  simp only [Chip.write, Nat.not_le.mpr ho, hb, hm, Chip.load, if_false, Nat.lt_irrefl]
  exact if_pos ⟨hblk, hpage⟩

/-- The invariant is that the loaded words and the ones to come share the page. -/
theorem writeFrom_data {page block o left : ℕ} {ws : List UInt32} {loaded : List (ℕ × UInt32)}
    (hm : c.mode = .bufferData block left loaded) (hlen : ws.length = left + 1)
    (hb : c.busy = 0) (hw : o + ws.length ≤ g.words)
    (hin : ∀ x, o ≤ x → x < o + ws.length → x / g.blockWords = block ∧ x / g.pageWords = page)
    (hl : ∀ x ∈ loaded, x.1 / g.pageWords = page) :
    c.writeFrom g o ws = { c with mode := .bufferConfirm block (loaded ++ addressed o ws) } := by
  induction ws generalizing c o left loaded with
  | nil => simp at hlen
  | cons w ws ih =>
    simp only [List.length_cons] at hlen hw hin
    obtain ⟨hblk, hpage⟩ := hin o (by omega) (by omega)
    simp only [Chip.writeFrom]
    rw [load_data hm hb (by omega) hblk fun x hx => (hl x hx).trans hpage.symm]
    cases left with
    | zero =>
      obtain rfl := List.length_eq_zero_iff.mp (Nat.succ.inj hlen)
      rfl
    | succ left =>
      have hl' : ∀ x ∈ loaded ++ [(o, w)], x.1 / g.pageWords = page := by
        intro x hx
        rcases List.mem_append.mp hx with hx | hx
        · exact hl x hx
        · obtain rfl := List.mem_singleton.mp hx
          exact hpage
      have hm' : ({ c with mode := .bufferData block left (loaded ++ [(o, w)]) } : Chip).mode =
          .bufferData block left (loaded ++ [(o, w)]) := rfl
      refine (ih hm' (Nat.succ.inj hlen) hb ?_ ?_ hl').trans ?_
      · omega
      · intro x h₁ h₂
        exact hin x (by omega) (by omega)
      · simp [addressed]

theorem div_eq_of_mod_add_le {o p n x : ℕ} (hp : 0 < p) (h : o % p + n ≤ p) (h₁ : o ≤ x)
    (h₂ : x < o + n) : x / p = o / p := by
  have ho := Nat.div_add_mod o p
  have : x = (x - o + o % p) + p * (o / p) := by omega
  rw [this, Nat.add_mul_div_left _ _ hp, Nat.div_eq_of_lt (by omega), Nat.zero_add]

theorem block_eq_of_page_eq {x y : ℕ} (h : x / g.pageWords = y / g.pageWords) :
    x / g.blockWords = y / g.blockWords := by
  obtain ⟨k, hk⟩ := g.page_dvd_block
  rw [hk, ← Nat.div_div_eq_div_mul, ← Nat.div_div_eq_div_mul, h]

theorem Chip.Idle.program (h : c.Idle) {o b : ℕ} {ws : List UInt32} {n : UInt32}
    (hlen : n.toNat + 1 = ws.length) (hb : b < g.words)
    (hblk : b / g.blockWords = o / g.blockWords)
    (hw : o + ws.length ≤ g.words) (hpage : o % g.pageWords + ws.length ≤ g.pageWords) :
    ((((c.write g b cmdBufferProgram).write g b n).writeFrom g o ws).write g b cmdConfirm) =
      { c.start (programWords c.mem (addressed o ws)) with
        programs := c.programs ++ [addressed o ws] } := by
  have hpos : 0 < ws.length := by omega
  have hbusy := h.busy
  have hin : ∀ x, o ≤ x → x < o + ws.length →
      x / g.blockWords = b / g.blockWords ∧ x / g.pageWords = o / g.pageWords := by
    intro x h₁ h₂
    have hp := div_eq_of_mod_add_le g.page_pos hpage h₁ h₂
    exact ⟨(block_eq_of_page_eq hp).trans hblk.symm, hp⟩
  have hcmd : c.write g b cmdBufferProgram =
      { c with mode := .bufferCount (b / g.blockWords) } := by
    rw [h.write hb]
    rfl
  have hcount : ({ c with mode := .bufferCount (b / g.blockWords) } : Chip).write g b n =
      { c with mode := .bufferData (b / g.blockWords) (ws.length - 1) [] } := by
    have hn : n.toNat = ws.length - 1 := by omega
    have hfit : ws.length - 1 < g.pageWords := by omega
    simp [Chip.write, Nat.not_le.mpr hb, hbusy, hn, hfit]
  have hm : ({ c with mode := .bufferData (b / g.blockWords) (ws.length - 1) [] } : Chip).mode =
      .bufferData (b / g.blockWords) (ws.length - 1) [] := rfl
  rw [hcmd, hcount, writeFrom_data hm (by omega) hbusy hw hin (by simp)]
  simp [Chip.write, Nat.not_le.mpr hb, hbusy, Chip.start]

end NorFlash
