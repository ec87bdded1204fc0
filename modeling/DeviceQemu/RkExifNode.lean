import DeviceQemu.RkNodes
import DeviceQemu.StepSystem
import Mathlib.Data.List.Basic

/-! The location in a photo.
Config keeps the coordinates of a capture setting in a list of the node; DeliverBuffer writes what it
reads there into the EXIF data of a JPEG. -/
namespace RkExifNode

open RkNodes StepSystem

variable {α : Type}

inductive RetCode where
  | ok
  | error
  deriving DecidableEq, Repr

/-- The items that SendMetadata looks for, as far as FindCameraMetadataItem finds them. -/
structure Metadata (α : Type) where
  gpsCoordinates : Option (List α)
  quality : Option UInt8
  orientation : Option Int32
  mirror : Option UInt8
  deriving DecidableEq, Repr

def groupLen : ℕ := 3

def setGpsInfoMetadata (gpsInfo : List α) (data : Metadata α) : RetCode × List α :=
  match data.gpsCoordinates with
  | none => (.error, gpsInfo)
  | some entry => if entry.length ≠ groupLen then (.error, gpsInfo) else (.ok, gpsInfo ++ entry)

def sendMetadata (gpsInfo : List α) : Option (Metadata α) → RetCode × List α
  | none => (.error, gpsInfo)
  | some data =>
    match setGpsInfoMetadata gpsInfo data with
    | (.error, gpsInfo) => (.error, gpsInfo)
    | (.ok, gpsInfo) =>
      if data.quality = none then (.error, gpsInfo)
      else if data.orientation = none then (.error, gpsInfo)
      else if data.mirror = none then (.error, gpsInfo)
      else (.ok, gpsInfo)

/-- A null `meta`, or the header that it has. -/
def config (gpsInfo : List α) : Option (Option (Metadata α)) → RetCode × List α
  | none => (.ok, gpsInfo)
  | some data => (.ok, (sendMetadata gpsInfo data).2)

structure ExifData (α : Type) where
  latitude : α
  longitude : α
  altitude : α
  frameSize : ℤ
  deriving DecidableEq, Repr

/-- What DeliverBuffer looks at, and what AddCustomExifInfo returns for it. -/
structure Buffer where
  encodeType : EncodeType
  frameSize : ℤ
  exifRet : RetCode
  deriving DecidableEq, Repr

/-- The EXIF data in the buffer that is passed on. There is no value where `at` throws. -/
def deliverBuffer (gpsInfo : List α) (buffer : Buffer) : Option (Option (ExifData α)) :=
  if buffer.encodeType = .jpeg ∧ 0 < gpsInfo.length then do
    let latitude ← gpsInfo[0]?
    let longitude ← gpsInfo[1]?
    let altitude ← gpsInfo[2]?
    if buffer.frameSize ≠ -1 then
      match buffer.exifRet with
      | .ok => some (some ⟨latitude, longitude, altitude, buffer.frameSize⟩)
      | .error => some none
    else some none
  else some none

structure Triple (α : Type) where
  latitude : α
  longitude : α
  altitude : α
  deriving DecidableEq, Repr

def Triple.toList (t : Triple α) : List α := [t.latitude, t.longitude, t.altitude]

def triple : Option (Option (Metadata α)) → Option (Triple α)
  | some (some ⟨some [latitude, longitude, altitude], _, _, _⟩) =>
    some ⟨latitude, longitude, altitude⟩
  | _ => none

/-- A DeliverBuffer without a buffer returns at once. -/
inductive Event (α : Type) where
  | config (data : Option (Option (Metadata α)))
  | deliver (buffer : Option Buffer)
  deriving DecidableEq, Repr

/-- The triples of the well-formed Configs so far are `configured`. -/
structure State (α : Type) where
  gpsInfo : List α
  configured : List (Triple α)
  deriving DecidableEq, Repr

def after (s : State α) : Event α → State α
  | .config data => ⟨(config s.gpsInfo data).2, s.configured ++ (triple data).toList⟩
  | .deliver _ => s

def system (α : Type) : System (State α) (Event α) where
  Init s := s = ⟨[], []⟩
  next s e := some (after s e)

def ExifData.triple (exif : ExifData α) : Triple α :=
  ⟨exif.latitude, exif.longitude, exif.altitude⟩

/-- A JPEG is tagged as configured last, and one triple is all that is stored. -/
def Right (s : State α) (e : Event α) : Prop :=
  (∀ buffer, e = .deliver (some buffer) → buffer.encodeType = .jpeg →
    (deliverBuffer s.gpsInfo buffer).map (Option.map ExifData.triple) =
      some s.configured.getLast?) ∧
  (after s e).gpsInfo.length ≤ groupLen

/-- A well-formed Config is the first; the JPEGs after it have a size, and room for the data. -/
def Fresh (s : State α) : Event α → Prop
  | .config data => triple data ≠ none → s.configured = []
  | .deliver none => True
  | .deliver (some buffer) => buffer.encodeType = .jpeg → s.configured ≠ [] →
      buffer.frameSize ≠ -1 ∧ buffer.exifRet = .ok

instance [DecidableEq α] (s : State α) : (e : Event α) → Decidable (Fresh s e)
  | .config _ => inferInstanceAs (Decidable (_ → _))
  | .deliver none => isTrue trivial
  | .deliver (some _) => inferInstanceAs (Decidable (_ → _ → _ ∧ _))

theorem triple_eq_some {data : Option (Option (Metadata α))} {t : Triple α}
    (h : triple data = some t) : ∃ data', data = some (some data') ∧
      data'.gpsCoordinates = some t.toList := by
  match data, h with
  | some (some ⟨some [_, _, _], quality, orientation, mirror⟩), h =>
    rw [triple, Option.some.injEq] at h
    rw [← h]
    exact ⟨_, rfl, rfl⟩

theorem triple_eq_none {data : Metadata α} (h : triple (some (some data)) = none) :
    ∀ entry, data.gpsCoordinates = some entry → entry.length ≠ groupLen := by
  rintro entry hentry hlength
  obtain ⟨a, b, c, rfl⟩ := List.length_eq_three.mp hlength
  obtain ⟨coordinates, quality, orientation, mirror⟩ := data
  obtain rfl : coordinates = some [a, b, c] := hentry
  exact Option.some_ne_none _ h

theorem config_gpsInfo (gpsInfo : List α) (data : Option (Option (Metadata α))) :
    (config gpsInfo data).2 = gpsInfo ++ (triple data).toList.flatMap Triple.toList := by
  have hsend : ∀ data : Metadata α,
      (sendMetadata gpsInfo (some data)).2 = (setGpsInfoMetadata gpsInfo data).2 := by
    intro data
    rw [sendMetadata]
    rcases setGpsInfoMetadata gpsInfo data with ⟨ret, stored⟩
    cases ret with
    | error => rfl
    | ok =>
      dsimp only
      split_ifs <;> rfl
  match data with
  | none => simp [config, triple]
  | some none => simp [config, triple, sendMetadata]
  | some (some data) =>
    rw [config, hsend, setGpsInfoMetadata]
    cases htriple : triple (some (some data)) with
    | some t =>
      obtain ⟨data', hdata, hgps⟩ := triple_eq_some htriple
      cases hdata
      simp [hgps, Triple.toList, groupLen]
    | none =>
      have hnot := triple_eq_none htriple
      cases hgps : data.gpsCoordinates with
      | none => simp
      | some entry => simp [hnot entry hgps]

def Stored (s : State α) : Prop := s.gpsInfo = s.configured.flatMap Triple.toList

theorem stored_after {s : State α} (h : Stored s) (e : Event α) : Stored (after s e) := by
  cases e with
  | config data =>
    rw [Stored, after, config_gpsInfo, h, List.flatMap_append]
  | deliver buffer => exact h

theorem deliverBuffer_jpeg {s : State α} (h : Stored s) {buffer : Buffer}
    (hjpeg : buffer.encodeType = .jpeg) :
    (deliverBuffer s.gpsInfo buffer).map (Option.map ExifData.triple) =
      some (if buffer.frameSize ≠ -1 ∧ buffer.exifRet = .ok then s.configured.head? else none) := by
  rw [deliverBuffer, h]
  cases hconfigured : s.configured with
  | nil => simp
  | cons t rest =>
    cases hret : buffer.exifRet with
    | ok => by_cases hsize : buffer.frameSize = -1 <;>
        simp [Triple.toList, ExifData.triple, hjpeg, hsize]
    | error => by_cases hsize : buffer.frameSize = -1 <;>
        simp [Triple.toList, hjpeg, hsize]

def Single (s : State α) : Prop := Stored s ∧ s.configured.length ≤ 1

theorem length_stored {s : State α} (h : Stored s) : s.gpsInfo.length = 3 * s.configured.length := by
  have hthree : ∀ configured : List (Triple α),
      (configured.flatMap Triple.toList).length = 3 * configured.length := by
    intro configured
    induction configured with
    | nil => rfl
    | cons t rest ih =>
      rw [List.flatMap_cons, List.length_append, ih, List.length_cons, Triple.toList]
      simp only [List.length_cons, List.length_nil]
      omega
  rw [h, hthree]

theorem single_after {s : State α} (h : Single s) {e : Event α} (hf : Fresh s e) :
    Single (after s e) := by
  refine ⟨stored_after h.1 e, ?_⟩
  cases e with
  | deliver buffer => exact h.2
  | config data =>
    rw [after, List.length_append]
    cases htriple : triple data with
    | none => exact h.2
    | some t =>
      have hfirst : s.configured = [] := hf (by rw [htriple]; exact Option.some_ne_none t)
      rw [hfirst]
      exact le_rfl

theorem right_config_iff {s : State α} (h : Single s) (data : Option (Option (Metadata α))) :
    Right s (.config data) ↔ Fresh s (.config data) := by
  have hlength := length_stored (stored_after h.1 (.config data))
  constructor
  · rintro ⟨-, hright⟩ hsome
    obtain ⟨t, htriple⟩ := Option.ne_none_iff_exists'.mp hsome
    rw [hlength, after, htriple, groupLen, List.length_append] at hright
    rw [← List.length_eq_zero_iff]
    simp only [Option.toList_some, List.length_singleton] at hright
    omega
  · intro hf
    have hone := (single_after h hf).2
    refine ⟨fun buffer he => (by cases he), ?_⟩
    rw [hlength, groupLen]
    omega

theorem right_deliver_iff {s : State α} (h : Single s) (buffer : Buffer) :
    Right s (.deliver (some buffer)) ↔ Fresh s (.deliver (some buffer)) := by
  have hlength := length_stored h.1
  have hshort : (after s (.deliver (some buffer))).gpsInfo.length ≤ groupLen := by
    rw [after, hlength, groupLen]
    have hone := h.2
    omega
  have hlast : s.configured.getLast? = s.configured.head? := by
    obtain ⟨-, hone⟩ := h
    match s.configured, hone with
    | [], _ => rfl
    | [_], _ => rfl
  have hnone : s.configured.head? = none ↔ s.configured = [] := List.head?_eq_none_iff
  constructor
  · rintro ⟨hright, -⟩ hjpeg hsome
    have htag := hright buffer rfl hjpeg
    rw [deliverBuffer_jpeg h.1 hjpeg, hlast, Option.some.injEq] at htag
    by_contra hnot
    rw [if_neg hnot] at htag
    exact hsome (hnone.mp htag.symm)
  · intro hf
    refine ⟨fun buffer' he hjpeg => ?_, hshort⟩
    cases he
    rw [deliverBuffer_jpeg h.1 hjpeg, hlast]
    by_cases hempty : s.configured = []
    · rw [hempty, List.head?_nil, ite_self]
    · rw [if_pos (hf hjpeg hempty)]

theorem right_iff {s : State α} (h : Single s) (e : Event α) : Right s e ↔ Fresh s e := by
  match e with
  | .config data => exact right_config_iff h data
  | .deliver (some buffer) => exact right_deliver_iff h buffer
  | .deliver none =>
    refine iff_of_true ⟨fun buffer he => (by cases he), ?_⟩ trivial
    have hone := h.2
    rw [after, length_stored h.1, groupLen]
    omega

/-- The runs in which every photo is tagged as it should be and the list stays as short. -/
theorem exif_iff_fresh {s : State α} (h : (system α).Init s) (es : List (Event α)) :
    StepsMeet (system α) Right s es ↔ StepsMeet (system α) Fresh s es := by
  have hinit : Single s := by
    obtain rfl : s = ⟨[], []⟩ := h
    exact ⟨rfl, Nat.zero_le 1⟩
  apply stepsMeet_iff _ _ hinit
  · intro s e t hs hf ht
    rw [← Option.some.inj ht]
    exact single_after hs hf
  · intro s e t hs _
    exact right_iff hs e

def located (latitude longitude altitude : ℕ) : Event ℕ :=
  .config (some (some ⟨some [latitude, longitude, altitude], some 90, some 0, some 0⟩))

def photo : Event ℕ := .deliver (some ⟨.jpeg, 4096, .ok⟩)

theorem exif_once : StepsMeet (system ℕ) Right ⟨[], []⟩
    [photo, located 31 121 4, photo, .config none, photo] :=
  (exif_iff_fresh rfl _).mpr (by decide)

/-- The second place is stored behind the first, where no photo looks. -/
theorem exif_stale :
    ((system ℕ).run ⟨[], []⟩ [located 31 121 4, located 39 116 50]).map
      (fun s => (s.gpsInfo, deliverBuffer s.gpsInfo ⟨.jpeg, 4096, .ok⟩)) =
        some ([31, 121, 4, 39, 116, 50], some (some ⟨31, 121, 4, 4096⟩)) ∧
    ¬ StepsMeet (system ℕ) Right ⟨[], []⟩ [located 31 121 4, located 39 116 50, photo] := by
  refine ⟨by decide, fun h => ?_⟩
  obtain ⟨-, hrest⟩ := h _ rfl
  obtain ⟨hright, -⟩ := hrest _ rfl
  exact absurd hright.2 (by decide)

end RkExifNode
