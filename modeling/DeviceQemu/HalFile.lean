import DeviceQemu.StepSystem
import Mathlib.Algebra.Group.Nat.Defs
import Mathlib.Data.Int.Notation
import Mathlib.Logic.Function.Basic
import Mathlib.Tactic.ByContra
import Mathlib.Tactic.SplitIfs

/-! The files of SmartL_E802 and esp32.
The hal_file.c of the two boards over a file system that may refuse any call. Each function makes the
name that it passes on in a buffer of its own. -/
namespace HalFile

open StepSystem

/-- The characters of a string before its terminator. -/
structure Text where
  chars : List UInt8
  terminated : 0 ∉ chars
  deriving Repr

theorem Text.eq_iff {s t : Text} : s.chars = t.chars ↔ s = t := by
  cases s
  cases t
  rw [Text.mk.injEq]

instance : DecidableEq Text := fun _ _ => decidable_of_iff _ Text.eq_iff

def Text.empty : Text := ⟨[], List.not_mem_nil⟩

def Text.append (s t : Text) : Text :=
  ⟨s.chars ++ t.chars, fun h => (List.mem_append.mp h).elim s.terminated t.terminated⟩

instance : Append Text := ⟨Text.append⟩

def littlefs : Text :=
  ⟨"/littlefs/".toList.map fun c => UInt8.ofNat c.toNat, by decide⟩

inductive Board where
  | smartlE802
  | esp32
  deriving DecidableEq, Repr

def Board.littlefsMaxLfnLen : Board → ℕ
  | .smartlE802 => 120
  | .esp32 => 120

/-- snprintf_s of a text: when the buffer has no room for it and its terminator it is emptied. -/
def snprintfS (destMax : ℕ) (text : Text) : Text :=
  if text.chars.length < destMax then text else .empty

abbrev Files := Text → Option ℕ

/-- The bits of an `oflag`. -/
structure Oflags where
  creat : ℤ → Bool
  excl : ℤ → Bool
  trunc : ℤ → Bool

/-- A call that a function makes, with the name that it passes on. -/
inductive Call where
  | opens (name : Text) (oflag mode : ℤ)
  | unlinks (name : Text)
  | stats (name : Text)
  deriving DecidableEq, Repr

def Call.name : Call → Text
  | .opens name _ _ | .unlinks name | .stats name => name

def Call.file (c : Call) : Option Text := if c.name = .empty then none else some c.name

/-- `fd` is none when the file system refuses. -/
def openFile (o : Oflags) (files : Files) (name : Text) (oflag : ℤ) (fd : Option ℕ) : ℤ × Files :=
  match fd with
  | none => (-1, files)
  | some fd =>
    if name = .empty then (-1, files)
    else if (files name).isSome then
      if o.creat oflag ∧ o.excl oflag then (-1, files)
      else (fd, if o.trunc oflag then Function.update files name (some 0) else files)
    else if o.creat oflag then (fd, Function.update files name (some 0))
    else (-1, files)

def unlinkFile (files : Files) (name : Text) (granted : Bool) : ℤ × Files :=
  if granted = true ∧ name ≠ .empty ∧ (files name).isSome then
    (0, Function.update files name none)
  else (-1, files)

def statFile (files : Files) (name : Text) (granted : Bool) : Option ℕ :=
  if granted = true ∧ name ≠ .empty then files name else none

/-- What a function returns, the call that it made and what it wrote to `*fileSize`. -/
structure Result where
  ret : ℤ
  call : Call
  fileSize : Option UInt32
  files : Files

section Functions

variable (b : Board) (o : Oflags) (files : Files) (path : Text)

def tmpPath : Text := snprintfS b.littlefsMaxLfnLen (littlefs ++ path)

def halFileOpen (oflag mode : ℤ) (fd : Option ℕ) : Result :=
  let opened := openFile o files (tmpPath b path) oflag fd
  ⟨opened.1, .opens (tmpPath b path) oflag mode, none, opened.2⟩

/-- unlink is passed `path`; `tmpPath` is not used. -/
def halFileDelete (granted : Bool) : Result :=
  let unlinked := unlinkFile files path granted
  ⟨unlinked.1, .unlinks path, none, unlinked.2⟩

/-- `halStat` is what the stack holds for a call that fails. -/
def halFileStat (granted : Bool) (halStat : UInt32) : Result :=
  match statFile files (tmpPath b path) granted with
  | some size => ⟨0, .stats (tmpPath b path), some (UInt32.ofNat size), files⟩
  | none => ⟨-1, .stats (tmpPath b path), some halStat, files⟩

end Functions

/-- `resize` is what a HalFileWrite does to a file. -/
inductive Event where
  | halFileOpen (path : Text) (oflag mode : ℤ) (fd : Option ℕ)
  | halFileDelete (path : Text) (granted : Bool)
  | halFileStat (path : Text) (granted : Bool) (halStat : UInt32)
  | resize (name : Text) (size : ℕ)
  deriving DecidableEq, Repr

def resize (files : Files) (name : Text) (size : ℕ) : Files :=
  if (files name).isSome then Function.update files name (some size) else files

def after (b : Board) (o : Oflags) (files : Files) : Event → Files
  | .halFileOpen path oflag mode fd => (halFileOpen b o files path oflag mode fd).files
  | .halFileDelete path granted => (halFileDelete files path granted).files
  | .halFileStat path granted halStat => (halFileStat b files path granted halStat).files
  | .resize name size => resize files name size

def system (b : Board) (o : Oflags) : System Files Event where
  Init _ := True
  next files e := some (after b o files e)

def Fits (b : Board) (path : Text) : Prop :=
  (littlefs ++ path).chars.length < b.littlefsMaxLfnLen

instance (b : Board) (path : Text) : Decidable (Fits b path) := inferInstanceAs (Decidable (_ < _))

/-- The one name space: the file is `path` under /littlefs/ or none, and no other changes. -/
structure Names (b : Board) (files : Files) (path : Text) (r : Result) : Prop where
  file : r.call.file = if Fits b path then some (littlefs ++ path) else none
  refuses : ¬ Fits b path → r.ret = -1
  others : ∀ name, ¬ (Fits b path ∧ name = littlefs ++ path) → r.files name = files name
  size : r.ret = -1 → r.fileSize = none

def Right (b : Board) (o : Oflags) (files : Files) : Event → Prop
  | .halFileOpen path oflag mode fd => Names b files path (halFileOpen b o files path oflag mode fd)
  | .halFileDelete path granted => Names b files path (halFileDelete files path granted)
  | .halFileStat path granted halStat => Names b files path (halFileStat b files path granted halStat)
  | .resize .. => True

/-- Nothing is deleted, and what is asked for its size fits and is a file that stat finds. -/
def Avoids (b : Board) (files : Files) : Event → Prop
  | .halFileDelete .. => False
  | .halFileStat path granted _ =>
    granted = true ∧ Fits b path ∧ (files (littlefs ++ path)).isSome = true
  | .halFileOpen .. | .resize .. => True

section Names

variable {b : Board} {o : Oflags} {files : Files} {path : Text}

theorem append_chars (s t : Text) : (s ++ t).chars = s.chars ++ t.chars := rfl

theorem littlefs_append_length (path : Text) :
    (littlefs ++ path).chars.length = 10 + path.chars.length := by
  have hlittlefs : littlefs.chars.length = 10 := by decide
  rw [append_chars, List.length_append, hlittlefs]

theorem littlefs_append_ne_empty (path : Text) : littlefs ++ path ≠ .empty := by
  intro h
  have hlength := littlefs_append_length path
  rw [h] at hlength
  change 0 = _ at hlength
  omega

theorem littlefs_append_ne (path : Text) : littlefs ++ path ≠ path := by
  intro h
  have hlength := littlefs_append_length path
  rw [h] at hlength
  omega

theorem tmpPath_of_fits (h : Fits b path) : tmpPath b path = littlefs ++ path := if_pos h

theorem tmpPath_of_not_fits (h : ¬ Fits b path) : tmpPath b path = .empty := if_neg h

theorem file_tmpPath {c : Call} (hc : c.name = tmpPath b path) :
    c.file = if Fits b path then some (littlefs ++ path) else none := by
  rw [Call.file, hc]
  by_cases h : Fits b path
  · rw [tmpPath_of_fits h, if_neg (littlefs_append_ne_empty path), if_pos h]
  · rw [tmpPath_of_not_fits h, if_pos rfl, if_neg h]

theorem openFile_empty (o : Oflags) (files : Files) (oflag : ℤ) (fd : Option ℕ) :
    openFile o files .empty oflag fd = (-1, files) := by
  cases fd <;> rfl

theorem openFile_other (o : Oflags) (files : Files) {name other : Text} (h : other ≠ name)
    (oflag : ℤ) (fd : Option ℕ) : (openFile o files name oflag fd).2 other = files other := by
  cases fd with
  | none => rfl
  | some fd =>
    rw [openFile]
    split_ifs <;> simp [Function.update_of_ne h]

theorem halFileOpen_names (oflag mode : ℤ) (fd : Option ℕ) :
    Names b files path (halFileOpen b o files path oflag mode fd) := by
  constructor
  · exact file_tmpPath rfl
  · intro h
    rw [halFileOpen, tmpPath_of_not_fits h, openFile_empty]
  · intro name hname
    rw [halFileOpen]
    by_cases h : Fits b path
    · rw [tmpPath_of_fits h]
      exact openFile_other o files (fun heq => hname ⟨h, heq⟩) oflag fd
    · rw [tmpPath_of_not_fits h, openFile_empty]
  · exact fun _ => rfl

theorem halFileDelete_not_names (granted : Bool) :
    ¬ Names b files path (halFileDelete files path granted) := by
  intro h
  have hfile := h.file
  rw [halFileDelete, Call.file, Call.name] at hfile
  by_cases hfits : Fits b path
  · rw [if_pos hfits] at hfile
    split_ifs at hfile
    exact littlefs_append_ne path (Option.some.inj hfile).symm
  · rw [if_neg hfits] at hfile
    split_ifs at hfile with hempty
    subst hempty
    exact hfits (by cases b <;> decide)

/-- The file that HalFileOpen opens for a path is left by HalFileDelete. -/
theorem halFileDelete_leaves (granted : Bool) :
    (halFileDelete files path granted).files (littlefs ++ path) = files (littlefs ++ path) := by
  rw [halFileDelete, unlinkFile]
  split_ifs
  · exact Function.update_of_ne (littlefs_append_ne path) _ _
  · rfl

theorem halFileStat_names_iff (granted : Bool) (halStat : UInt32) :
    Names b files path (halFileStat b files path granted halStat) ↔
      granted = true ∧ Fits b path ∧ (files (littlefs ++ path)).isSome = true := by
  rw [halFileStat]
  constructor
  · intro h
    cases hstat : statFile files (tmpPath b path) granted with
    | none =>
      rw [hstat] at h
      exact absurd (h.size rfl) (Option.some_ne_none _)
    | some size =>
      rw [statFile] at hstat
      split_ifs at hstat with hasked
      have hfits : Fits b path := by
        by_contra hnot
        exact hasked.2 (tmpPath_of_not_fits hnot)
      rw [tmpPath_of_fits hfits] at hstat
      exact ⟨hasked.1, hfits, Option.isSome_of_eq_some hstat⟩
  · rintro ⟨hgranted, hfits, hexists⟩
    obtain ⟨size, hsize⟩ := Option.isSome_iff_exists.mp hexists
    have hstat : statFile files (tmpPath b path) granted = some size := by
      rw [tmpPath_of_fits hfits, statFile, if_pos ⟨hgranted, littlefs_append_ne_empty path⟩, hsize]
    rw [hstat]
    exact ⟨file_tmpPath rfl, fun h => absurd hfits h, fun _ _ => rfl, fun h => by cases h⟩

theorem right_iff_avoids (b : Board) (o : Oflags) (files : Files) (e : Event) :
    Right b o files e ↔ Avoids b files e := by
  cases e with
  | halFileOpen path oflag mode fd => exact iff_of_true (halFileOpen_names oflag mode fd) trivial
  | halFileDelete path granted => exact iff_of_false (halFileDelete_not_names granted) not_false
  | halFileStat path granted halStat => exact halFileStat_names_iff granted halStat
  | resize => exact Iff.rfl

end Names

/-- The functions share one name space on exactly the runs that delete nothing and find every file
whose size they ask for. -/
theorem one_name_space_iff (b : Board) (o : Oflags) (files : Files) (es : List Event) :
    StepsMeet (system b o) (Right b o) files es ↔ StepsMeet (system b o) (Avoids b) files es :=
  stepsMeet_iff (I := fun _ => True) (fun _ _ _ _ _ _ => trivial)
    (fun files e _ _ _ => right_iff_avoids b o files e) trivial es

def createDelete : List Event :=
  [.halFileOpen ⟨[97], by decide⟩ 0 0 (some 3), .halFileDelete ⟨[97], by decide⟩ true]

def creating : Oflags := ⟨fun _ => true, fun _ => false, fun _ => false⟩

theorem one_name_space_fails :
    ¬ StepsMeet (system .esp32 creating) (Right .esp32 creating) (fun _ => none) createDelete := by
  intro h
  obtain ⟨-, hdelete⟩ := h _ rfl
  exact halFileDelete_not_names true (hdelete _ rfl).1

end HalFile
