import DeviceQemu.TerminatedStrings
import Mathlib.Algebra.Group.Nat.Defs

/-! The uevent monitor.
MonitorThread reads one netlink message after the other into a zeroed array, and ParseUeventMessage
goes through the strings of a message until one reports a hot-plug. -/
namespace UeventMonitor

open TerminatedStrings

def bytes (s : String) : List UInt8 := s.toList.map fun c => UInt8.ofNat c.toNat

def unplugged : List UInt8 := bytes "STATE=HDMI=0"

def plugged : List UInt8 := bytes "STATE=HDMI=1"

/-- What a run of ParseUeventMessage comes to: its calls of HandleHotplug, a read behind the memory
that it was given, or no end within the fuel. -/
inductive Outcome where
  | done (hotplugs : List Bool)
  | overread
  | unfinished
  deriving DecidableEq, Repr

/-- The loop over `num`, a uint32_t; the memory at `buf` is `mem`. -/
def parseLoop (mem : List UInt8) (len : ℕ) : ℕ → ℕ → Outcome
  | 0, num => if num < len then .unfinished else .done []
  | fuel + 1, num =>
    if num < len then
      let event := mem.drop num
      match strcmpZero 0 event unplugged with
      | none => .overread
      | some true => .done [false]
      | some false =>
        match strcmpZero 0 event plugged with
        | none => .overread
        | some true => .done [true]
        | some false =>
          match strlen 0 event with
          | none => .overread
          | some n => parseLoop mem len fuel ((num + (n + 1)) % 2 ^ 32)
    else .done []

def parseUeventMessage (mem : List UInt8) (len : ℕ) : Outcome := parseLoop mem len len 0

def bufferSize : ℕ := 2048

def received (message : List UInt8) : List UInt8 :=
  message ++ List.replicate (bufferSize - message.length) 0

def hotplug (event : List UInt8) : Option Bool :=
  if event = unplugged then some false else if event = plugged then some true else none

/-- The first of the zero-separated strings that reports a hot-plug decides. -/
def decision (message : List UInt8) : Option Bool := (message.splitOn 0).findSome? hotplug

/-- The message is empty or ends with a zero, or a hot-plug is reported before its last string. -/
def Delimited (message : List UInt8) : Prop :=
  message = [] ∨ message.getLast? = some 0 ∨
    ∃ event ∈ (message.splitOn 0).dropLast, hotplug event ≠ none

theorem not_mem_unplugged : 0 ∉ unplugged := by decide

theorem not_mem_plugged : 0 ∉ plugged := by decide

theorem plugged_ne_unplugged : plugged ≠ unplugged := by decide

theorem decision_cons {s : List UInt8} (hs : 0 ∉ s) (rest : List UInt8) :
    decision (s ++ 0 :: rest) = (hotplug s).or (decision rest) := by
  rw [decision, List.splitOn_append_cons_self_of_not_mem hs, List.findSome?_cons]
  cases hotplug s <;> rfl

theorem decision_unterminated {s : List UInt8} (hs : 0 ∉ s) : decision s = hotplug s := by
  rw [decision, List.splitOn_eq_singleton hs, List.findSome?_singleton]

theorem delimited_cons {s : List UInt8} (hs : 0 ∉ s) (rest : List UInt8) :
    Delimited (s ++ 0 :: rest) ↔ hotplug s ≠ none ∨ Delimited rest := by
  have hlast : (s ++ 0 :: rest).getLast? = some 0 ↔ rest = [] ∨ rest.getLast? = some 0 := by
    cases rest with
    | nil => simp
    | cons b rest => simp [List.getLast?_append, List.getLast?_cons]
  have hstrings : ((s ++ 0 :: rest).splitOn 0).dropLast = s :: (rest.splitOn 0).dropLast := by
    rw [List.splitOn_append_cons_self_of_not_mem hs,
      List.dropLast_cons_of_ne_nil (List.splitOn_ne_nil 0 rest)]
  rw [Delimited, Delimited, hlast, hstrings, List.exists_mem_cons_iff]
  simp only [List.append_eq_nil_iff, reduceCtorEq, and_false, false_or]
  tauto

theorem delimited_unterminated {s : List UInt8} (hs : 0 ∉ s) (hne : s ≠ []) : ¬ Delimited s := by
  rintro (hnil | hlast | ⟨event, hevent, -⟩)
  · exact hne hnil
  · exact hs (List.mem_of_getLast? hlast)
  · rw [List.splitOn_eq_singleton hs] at hevent
    simp at hevent

section Loop

variable {mem : List UInt8} {len fuel num : ℕ}

theorem parseLoop_terminated {s rest : List UInt8} (hs : 0 ∉ s) (hnum : num < len)
    (hmem : mem.drop num = s ++ 0 :: rest) :
    parseLoop mem len (fuel + 1) num =
      match hotplug s with
      | some plugIn => .done [plugIn]
      | none => parseLoop mem len fuel ((num + (s.length + 1)) % 2 ^ 32) := by
  simp only [parseLoop, if_pos hnum, hmem, strcmpZero_terminated hs not_mem_unplugged,
    strcmpZero_terminated hs not_mem_plugged, strlen_terminated hs, hotplug]
  by_cases h0 : s = unplugged
  · simp [h0]
  · by_cases h1 : s = plugged
    · simp [h1, plugged_ne_unplugged]
    · simp [h0, h1]

theorem parseLoop_unterminated {s : List UInt8} (hs : 0 ∉ s) (hnum : num < len)
    (hmem : mem.drop num = s) : parseLoop mem len (fuel + 1) num = .overread := by
  simp only [parseLoop, if_pos hnum, hmem, strlen_unterminated hs]
  have h0 := strcmpZero_unterminated hs unplugged
  have h1 := strcmpZero_unterminated hs plugged
  cases hcmp0 : strcmpZero 0 s unplugged with
  | none => rfl
  | some equal0 =>
    cases equal0 with
    | true => exact absurd hcmp0 h0
    | false =>
      cases hcmp1 : strcmpZero 0 s plugged with
      | none => rfl
      | some equal1 =>
        cases equal1 with
        | true => exact absurd hcmp1 h1
        | false => rfl

theorem parseLoop_end (h : len ≤ num) : parseLoop mem len fuel num = .done [] := by
  cases fuel with
  | zero => exact if_neg (Nat.not_lt_of_le h)
  | succ fuel => exact if_neg (Nat.not_lt_of_le h)

end Loop

/-- The last string of a message, when no zero ends it there, followed by `k` zeros. -/
theorem parseLoop_last {message : List UInt8} {k fuel num : ℕ}
    (hsmall : message.length + k + 1 < 2 ^ 32) (hnum : num < message.length)
    (hs : 0 ∉ message.drop num) :
    parseLoop (message ++ List.replicate k 0) message.length (fuel + 1) num =
      if k = 0 then .overread else .done (decision (message.drop num)).toList := by
  cases k with
  | zero =>
    rw [List.replicate_zero, List.append_nil]
    exact parseLoop_unterminated hs hnum rfl
  | succ k =>
    have hlength : (message.drop num).length = message.length - num := List.length_drop
    have hend : message.length ≤ (num + ((message.drop num).length + 1)) % 2 ^ 32 := by
      rw [Nat.mod_eq_of_lt (by omega)]
      omega
    have hmem : (message ++ 0 :: List.replicate k 0).drop num =
        message.drop num ++ 0 :: List.replicate k 0 :=
      List.drop_append_of_le_length (Nat.le_of_lt hnum)
    rw [List.replicate_succ, if_neg (Nat.succ_ne_zero k), parseLoop_terminated hs hnum hmem,
      decision_unterminated hs]
    cases hotplug (message.drop num) with
    | some plugIn => rfl
    | none => exact parseLoop_end hend

/-- The rest of a message followed by `k` zeros: it is handled right, or read behind its end when it
is not delimited and no zero follows. -/
theorem parseLoop_eq {message : List UInt8} {k : ℕ} (hsmall : message.length + k + 1 < 2 ^ 32)
    (fuel num : ℕ) (hnum : num ≤ message.length) (hfuel : message.length ≤ num + fuel) :
    (Delimited (message.drop num) ∨ 0 < k →
      parseLoop (message ++ List.replicate k 0) message.length fuel num =
        .done (decision (message.drop num)).toList) ∧
    (¬ Delimited (message.drop num) → k = 0 →
      parseLoop (message ++ List.replicate k 0) message.length fuel num = .overread) := by
  rcases Nat.lt_or_eq_of_le hnum with hlt | rfl
  swap
  · rw [List.drop_length, parseLoop_end (Nat.le_refl _)]
    exact ⟨fun _ => rfl, fun h => absurd (Or.inl rfl) h⟩
  induction fuel generalizing num with
  | zero => omega
  | succ fuel ih =>
    rcases terminated_or_not 0 (message.drop num) with ⟨s, rest, hs, hevent⟩ | hs
    · have hmem : (message ++ List.replicate k 0).drop num = s ++ 0 :: (rest ++ List.replicate k 0) := by
        rw [List.drop_append_of_le_length hnum, hevent, List.append_assoc, List.cons_append]
      have hrest : message.drop (num + (s.length + 1)) = rest := by
        rw [← List.drop_drop, hevent, ← List.drop_drop, List.drop_left]
        rfl
      have hlength : (message.drop num).length = message.length - num := List.length_drop
      rw [hevent, List.length_append, List.length_cons] at hlength
      have hnext : (num + (s.length + 1)) % 2 ^ 32 = num + (s.length + 1) :=
        Nat.mod_eq_of_lt (by omega)
      rw [hevent, parseLoop_terminated hs hlt hmem, decision_cons hs, delimited_cons hs, hnext]
      cases hplug : hotplug s with
      | some plugIn => exact ⟨fun _ => rfl, fun h => absurd (Or.inl (Option.some_ne_none _)) h⟩
      | none =>
        have hfalse : ¬ (none : Option Bool) ≠ none := fun h => h rfl
        rw [or_iff_right hfalse, Option.none_or, ← hrest]
        rcases Nat.lt_or_ge (num + (s.length + 1)) message.length with hmore | hend
        · exact ih (num + (s.length + 1)) (Nat.le_of_lt hmore) (by omega) hmore
        · rw [List.drop_eq_nil_of_le hend, parseLoop_end hend]
          exact ⟨fun _ => rfl, fun h => absurd (Or.inl rfl) h⟩
    · have hne : message.drop num ≠ [] := fun h => by
        have hle := List.drop_eq_nil_iff.mp h
        omega
      have hnot := delimited_unterminated hs hne
      rw [parseLoop_last hsmall hlt hs, or_iff_right hnot]
      exact ⟨fun hpos => if_neg (Nat.ne_of_gt hpos), fun _ hzero => if_pos hzero⟩

/-- Given nothing but the message, or the whole array with the message in it. -/
theorem parseUeventMessage_iff {message : List UInt8} (h : message.length ≤ bufferSize) :
    (parseUeventMessage message message.length = .done (decision message).toList ↔
      Delimited message) ∧
    (parseUeventMessage (received message) message.length = .done (decision message).toList ↔
      message.length < bufferSize ∨ Delimited message) := by
  have hsize : bufferSize = 2048 := rfl
  have hspec : ∀ k ≤ bufferSize,
      (parseUeventMessage (message ++ List.replicate k 0) message.length =
        .done (decision message).toList ↔ 0 < k ∨ Delimited message) := by
    intro k hk
    obtain ⟨hdone, hover⟩ :=
      @parseLoop_eq message k (by omega) message.length 0 (Nat.zero_le _) (Nat.le_add_left _ _)
    rw [List.drop_zero] at hdone hover
    constructor
    · intro hright
      by_contra hnot
      obtain ⟨hk, hnot⟩ := not_or.mp hnot
      rw [parseUeventMessage, hover hnot (Nat.eq_zero_of_not_pos hk)] at hright
      cases hright
    · intro hor
      exact hdone hor.symm
  constructor
  · have hmessage := hspec 0 (Nat.zero_le _)
    rwa [List.replicate_zero, List.append_nil, or_iff_right (Nat.lt_irrefl 0)] at hmessage
  · rw [received, hspec _ (Nat.sub_le _ _), Nat.sub_pos_iff_lt]

def plugIn : List UInt8 := bytes "change@/devices/hdmi" ++ 0 :: bytes "STATE=HDMI=1"

theorem parseUeventMessage_plugIn :
    parseUeventMessage (received plugIn) plugIn.length = .done [true] := by
  have hdecision : decision plugIn = some true := by decide
  have hdone := (@parseUeventMessage_iff plugIn (by decide)).2.mpr (Or.inl (by decide))
  rwa [hdecision] at hdone

def full : List UInt8 := List.replicate bufferSize 0x41

/-- The array is left, where nothing was reported. -/
theorem parseUeventMessage_full :
    full.length = bufferSize ∧ decision full = none ∧
      parseUeventMessage (received full) full.length = .overread := by
  have hs : 0 ∉ full := fun h => by
    have hzero := List.eq_of_mem_replicate h
    exact absurd hzero (by decide)
  have hlength : full.length = 2048 := List.length_replicate
  refine ⟨hlength, ?_, ?_⟩
  · have hplug : ∀ event, event.length = 12 → full ≠ event := fun event hevent heq => by
      rw [heq, hevent] at hlength
      cases hlength
    rw [decision_unterminated hs, hotplug, if_neg (hplug unplugged (by decide)),
      if_neg (hplug plugged (by decide))]
  · have hreceived : received full = full := by
      rw [received, hlength]
      exact List.append_nil full
    rw [hreceived, hlength]
    exact @parseLoop_unterminated full 2048 2047 0 full hs (by decide) rfl

end UeventMonitor
