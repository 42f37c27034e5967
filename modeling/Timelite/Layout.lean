import Timelite.CodecLaws
import Timelite.Reader

/-!
What the files of a pair mean. A batch is 1 to 64 records, a segment a header
and the frames of its batches, a chain the segments from a root on with their
backward links. Everything is a function from these values to bytes; the
readers and writers are specified against these bytes in later modules.
-/
namespace Timelite.Layout
open ByteFile Codec Reader

section Batches

/-- The records of a committed batch. -/
structure Batch where
  records : List Record
  occupied : records ≠ []
  few : records.length ≤ maxRecords
  deriving DecidableEq, Repr

def Batch.size (batch : Batch) : Nat := 64 + batch.records.length * 20

def framesSize (batches : List Batch) : Nat := (batches.map Batch.size).sum

-- Consecutive batches with their sequence numbers.
def number : (sequence : Nat) → List Batch → List (Nat × Batch)
  | _, [] => []
  | sequence, batch :: rest => (sequence, batch) :: number (sequence + 1) rest

/-- The frames of consecutive batches, the first one numbered `sequence`. -/
def frames : (sequence : Nat) → List Batch → Bytes
  | _, [] => []
  | sequence, batch :: rest => frame sequence batch.records ++ frames (sequence + 1) rest

def Batch.times (batch : Batch) : List Nat := batch.records.map (·.timestamp.toNat)

def timesOf (batches : List Batch) : List Nat := batches.flatMap Batch.times

theorem Batch.length_pos (batch : Batch) : 0 < batch.records.length :=
  List.length_pos_iff.mpr batch.occupied

theorem Batch.length_le (batch : Batch) : batch.records.length ≤ 64 := batch.few

theorem Batch.size_ge (batch : Batch) : 84 ≤ batch.size := by
  have := batch.length_pos
  simp only [Batch.size]
  omega

theorem Batch.size_le (batch : Batch) : batch.size ≤ 1344 := by
  have := batch.length_le
  simp only [Batch.size]
  omega

@[simp] theorem frames_size_nil : framesSize [] = 0 := rfl

@[simp] theorem frames_size_cons (batch : Batch) (rest : List Batch) :
    framesSize (batch :: rest) = batch.size + framesSize rest := by
  simp [framesSize]

@[simp] theorem frames_size_append (left right : List Batch) :
    framesSize (left ++ right) = framesSize left + framesSize right := by
  simp [framesSize]

theorem frames_size_ge (batches : List Batch) : 84 * batches.length ≤ framesSize batches := by
  induction batches with
  | nil => simp
  | cons batch rest ih =>
      have := batch.size_ge
      simp only [List.length_cons, frames_size_cons]
      omega

theorem frames_size_le (batches : List Batch) : framesSize batches ≤ batches.length * 1344 := by
  induction batches with
  | nil => simp
  | cons batch rest ih =>
      have := batch.size_le
      simp only [List.length_cons, frames_size_cons]
      omega

theorem frames_size_eq_zero {batches : List Batch} : framesSize batches = 0 ↔ batches = [] := by
  constructor
  · intro empty
    have least := frames_size_ge batches
    exact List.length_eq_zero_iff.mp (by omega)
  · rintro rfl
    rfl

@[simp] theorem frames_nil (sequence : Nat) : frames sequence [] = [] := rfl

@[simp] theorem frames_cons (sequence : Nat) (batch : Batch) (rest : List Batch) :
    frames sequence (batch :: rest) = frame sequence batch.records ++ frames (sequence + 1) rest := rfl

theorem frames_append (sequence : Nat) (left right : List Batch) :
    frames sequence (left ++ right) =
      frames sequence left ++ frames (sequence + left.length) right := by
  induction left generalizing sequence with
  | nil => rfl
  | cons batch rest ih =>
      simp only [List.cons_append, frames_cons, ih, List.append_assoc, List.length_cons]
      congr 3
      omega

@[simp] theorem encode_record_length (record : Record) : (encodeRecord record).length = 20 := by
  simp [encodeRecord]

@[simp] theorem records_length (records : List Record) :
    (records.flatMap encodeRecord).length = records.length * 20 := by
  induction records with
  | nil => rfl
  | cons record rest ih =>
      simp only [List.flatMap_cons, List.length_append, encode_record_length, ih, List.length_cons]
      omega

@[simp] theorem frame_header_length (sequence count : Nat) : (frameHeader sequence count).length = 32 := by
  simp [frameHeader, batchMagic]

@[simp] theorem frame_body_length (sequence : Nat) (records : List Record) :
    (frameBody sequence records).length = 32 + records.length * 20 := by
  simp [frameBody]

@[simp] theorem frame_commit_length (sequence : Nat) (records : List Record) :
    (frameCommit sequence records).length = 32 := by
  simp [frameCommit, commitMagic]

@[simp] theorem frame_length (sequence : Nat) (records : List Record) :
    (frame sequence records).length = 64 + records.length * 20 := by
  simp only [frame, List.length_append, frame_body_length, frame_commit_length]
  omega

@[simp] theorem frames_length (sequence : Nat) (batches : List Batch) :
    (frames sequence batches).length = framesSize batches := by
  induction batches generalizing sequence with
  | nil => rfl
  | cons batch rest ih => simp [ih, Batch.size]

end Batches

section Segments

inductive Kind where
  | legacy
  | span
  | unordered
  deriving DecidableEq, Repr

/-- An installed segment. A legacy header, TLSEGMNT, states no span. -/
structure Segment where
  kind : Kind
  first : Nat
  minimum : Nat
  maximum : Nat
  batches : List Batch
  counted : 0 < first
  occupied : batches ≠ []
  bounded : first + batches.length ≤ 18446744073709551616
  fits : framesSize batches ≤ walCapacity - 32
  spans : minimum ≤ maximum
  small : maximum ≤ uint64Max
  unknown : kind = .legacy → minimum = 0 ∧ maximum = uint64Max
  deriving DecidableEq, Repr

namespace Segment
variable (segment : Segment)

def last : Nat := segment.first + segment.batches.length - 1
def wide : Bool := decide (segment.kind ≠ .legacy)
def ordered : Bool := decide (segment.kind = .span)
def headerSize : Nat := if segment.wide then 64 else 32
def body : Nat := framesSize segment.batches
def size : Nat := segment.headerSize + segment.body
def times : List Nat := timesOf segment.batches

-- The sequence numbers of its batches with their records.
def numbered : List (Nat × Batch) := number segment.first segment.batches

def header (previous skip : Nat) : Bytes :=
  if segment.wide then
    encodeSegment segment.first segment.last segment.body segment.minimum segment.maximum
      previous skip segment.ordered
  else
    sealed (segmentMagic ++ encode64 segment.first ++ encode64 segment.last ++ encode32 segment.body)

def image (previous skip : Nat) : Bytes :=
  segment.header previous skip ++ frames segment.first segment.batches

/-- What `readSegment` returns for the segment. -/
def info (previous skip : Nat) : SegmentInfo where
  first := segment.first
  last := segment.last
  minimum := segment.minimum
  maximum := segment.maximum
  previous := if segment.wide then previous else 0
  skip := if segment.wide then skip else 0
  body := segment.body
  headerSize := segment.headerSize
  ordered := segment.ordered

/-- A wide header states the true span and order of its records. -/
def Truthful : Prop :=
  segment.wide = true →
    segment.minimum ∈ segment.times ∧ segment.maximum ∈ segment.times ∧
    (∀ time ∈ segment.times, segment.minimum ≤ time ∧ time ≤ segment.maximum) ∧
    (segment.ordered = true ↔ segment.times.Pairwise (· ≤ ·))

theorem length_pos : 0 < segment.batches.length := List.length_pos_iff.mpr segment.occupied

theorem first_le_last : segment.first ≤ segment.last := by
  have := segment.length_pos
  simp only [last]
  omega

theorem last_lt : segment.last < 18446744073709551616 := by
  have := segment.bounded
  have := segment.length_pos
  simp only [last]
  omega

theorem count_eq : segment.last - segment.first + 1 = segment.batches.length := by
  have := segment.length_pos
  simp only [last]
  omega

theorem body_ge : 84 * segment.batches.length ≤ segment.body := frames_size_ge _

theorem body_le : segment.body ≤ segment.batches.length * 1344 := frames_size_le _

theorem body_fits : segment.body ≤ 67108832 := segment.fits

theorem header_size_cases :
    segment.headerSize = 64 ∧ segment.wide = true ∨ segment.headerSize = 32 ∧ segment.wide = false := by
  unfold headerSize
  cases segment.wide <;> simp

@[simp] theorem header_size_wide : segment.headerSize = 64 ↔ segment.wide = true := by
  unfold headerSize
  cases segment.wide <;> simp

theorem size_ge : 116 ≤ segment.size := by
  have := segment.body_ge
  have := segment.length_pos
  rcases segment.header_size_cases with ⟨wide, _⟩ | ⟨narrow, _⟩ <;> simp only [size] <;> omega

@[simp] theorem header_length (previous skip : Nat) :
    (segment.header previous skip).length = segment.headerSize := by
  unfold header headerSize
  split <;> simp [segmentMagic]

@[simp] theorem image_length (previous skip : Nat) :
    (segment.image previous skip).length = segment.size := by
  simp [image, size, body]

end Segment

end Segments

section Chains

def extent (segments : List Segment) : Nat := (segments.map Segment.size).sum

def live (segments : List Segment) : Nat := (segments.map fun s => s.batches.length).sum

-- The offset of ordinal `k`, 1-based; 0 stands for no segment.
def linkTo (root : Nat) (segments : List Segment) (k : Nat) : Nat :=
  if k = 0 then 0 else root + extent (segments.take (k - 1))

/-- The segments `rest` as they lie after the segments `done` of a chain. -/
def chain (root : Nat) : (done rest : List Segment) → Bytes
  | _, [] => []
  | done, segment :: rest =>
      segment.image (linkTo root done done.length)
        (linkTo root done (done.length + 1 - lowBit (done.length + 1))) ++
      chain root (done ++ [segment]) rest

-- The last sequence number of a chain; 0 for an empty one.
def lastSequence (segments : List Segment) : Nat := (segments.getLast?.map Segment.last).getD 0

-- Sequence numbers increase; without retention they have no gaps.
def Increasing : (floor : Nat) → List Segment → Prop
  | _, [] => True
  | floor, segment :: rest => floor < segment.first ∧ Increasing segment.last rest

def Gapless : (floor : Nat) → List Segment → Prop
  | _, [] => True
  | floor, segment :: rest => segment.first = floor + 1 ∧ Gapless segment.last rest

def priorMaximum (segments : List Segment) : Nat :=
  (segments.getLast?.map fun s => if s.wide then s.maximum else 0).getD 0

def spanFrom : (n prior start : Nat) → List Segment → Nat
  | _, _, start, [] => start
  | n, prior, start, segment :: rest =>
      spanFrom (n + 1) (if segment.wide then segment.maximum else 0)
        (if segment.wide then
          if !segment.ordered then n + 1 else if segment.minimum < prior then n else start
        else n + 1) rest

/-- The first ordinal from which the segments are known to be ordered. -/
def spanStart (segments : List Segment) : Nat := spanFrom 1 0 1 segments

@[simp] theorem extent_nil : extent [] = 0 := rfl

@[simp] theorem extent_cons (segment : Segment) (rest : List Segment) :
    extent (segment :: rest) = segment.size + extent rest := by
  simp [extent]

@[simp] theorem extent_append (left right : List Segment) :
    extent (left ++ right) = extent left + extent right := by
  simp [extent]

@[simp] theorem live_nil : live [] = 0 := rfl

@[simp] theorem live_cons (segment : Segment) (rest : List Segment) :
    live (segment :: rest) = segment.batches.length + live rest := by
  simp [live]

@[simp] theorem live_append (left right : List Segment) :
    live (left ++ right) = live left + live right := by
  simp [live]

theorem extent_ge (segments : List Segment) : segments.length * 116 ≤ extent segments := by
  induction segments with
  | nil => simp
  | cons segment rest ih =>
      have := segment.size_ge
      simp only [List.length_cons, extent_cons]
      omega

theorem extent_take_succ {segments : List Segment} {i : Nat} {segment : Segment}
    (found : segments[i]? = some segment) :
    extent (segments.take (i + 1)) = extent (segments.take i) + segment.size := by
  rw [List.take_add_one, found, Option.toList_some, extent_append, extent_cons, extent_nil, Nat.add_zero]

@[simp] theorem link_zero (root : Nat) (segments : List Segment) : linkTo root segments 0 = 0 := rfl

@[simp] theorem link_succ (root : Nat) (segments : List Segment) (k : Nat) :
    linkTo root segments (k + 1) = root + extent (segments.take k) := by
  simp [linkTo]

theorem link_append (root : Nat) (left right : List Segment) {k : Nat} (inside : k ≤ left.length + 1) :
    linkTo root (left ++ right) k = linkTo root left k := by
  cases k with
  | zero => rfl
  | succ k => rw [link_succ, link_succ, List.take_append_of_le_length (by omega)]

theorem link_lt {root : Nat} {segments : List Segment} {k : Nat} (inside : k ≤ segments.length)
    (some : k ≠ 0) : linkTo root segments k < root + extent segments := by
  obtain ⟨k, rfl⟩ := Nat.exists_eq_succ_of_ne_zero some
  rw [Nat.succ_eq_add_one, link_succ]
  have split := congrArg extent (List.take_append_drop k segments)
  have rest := extent_ge (segments.drop k)
  rw [List.length_drop] at rest
  rw [extent_append] at split
  omega

theorem link_ge (root : Nat) (segments : List Segment) {k : Nat} (some : k ≠ 0) :
    root ≤ linkTo root segments k := by
  simp [linkTo, some]

@[simp] theorem chain_nil (root : Nat) (done : List Segment) : chain root done [] = [] := rfl

@[simp] theorem chain_length (root : Nat) (done rest : List Segment) :
    (chain root done rest).length = extent rest := by
  induction rest generalizing done with
  | nil => rfl
  | cons segment rest ih => simp [chain, ih]

theorem chain_append (root : Nat) (done left right : List Segment) :
    chain root done (left ++ right) = chain root done left ++ chain root (done ++ left) right := by
  induction left generalizing done with
  | nil => simp
  | cons segment rest ih => simp [chain, ih]

-- Each segment of a chain lies at its position with its own links.
theorem chain_segment {file : Bytes} {root : Nat} {done rest : List Segment} {segment : Segment}
    (held : Holds file root (chain root [] (done ++ segment :: rest))) :
    Holds file (root + extent done)
      (segment.image (linkTo root done done.length)
        (linkTo root done (done.length + 1 - lowBit (done.length + 1)))) := by
  rw [chain_append, holds_append, chain_length, chain, holds_append] at held
  exact held.2.1

theorem chain_snoc {file : Bytes} {root : Nat} {segments : List Segment} {segment : Segment} :
    Holds file root (chain root [] (segments ++ [segment])) ↔
      Holds file root (chain root [] segments) ∧
      Holds file (root + extent segments)
        (segment.image (linkTo root segments segments.length)
          (linkTo root segments (segments.length + 1 - lowBit (segments.length + 1)))) := by
  rw [chain_append, holds_append, chain_length]
  simp [chain]

theorem increasing_append {floor : Nat} {left right : List Segment} :
    Increasing floor (left ++ right) ↔
      Increasing floor left ∧
        Increasing ((left.getLast?.map Segment.last).getD floor) right := by
  induction left generalizing floor with
  | nil => simp [Increasing]
  | cons segment rest ih =>
      simp only [List.cons_append, Increasing, ih]
      cases rest with
      | nil => simp [Increasing]
      | cons next rest =>
          rw [List.getLast?_cons_cons, and_assoc]
          cases shape : (next :: rest).getLast? with
          | none => simp at shape
          | some final => simp

theorem span_from_append (n prior start : Nat) (left : List Segment) (segment : Segment) :
    spanFrom n prior start (left ++ [segment]) =
      if segment.wide then
        if !segment.ordered then n + left.length + 1
        else if segment.minimum < (left.getLast?.map fun s => if s.wide then s.maximum else 0).getD prior
          then n + left.length else spanFrom n prior start left
      else n + left.length + 1 := by
  induction left generalizing n prior start with
  | nil => simp [spanFrom]
  | cons head rest ih =>
      simp only [List.cons_append, spanFrom, ih, List.length_cons]
      have shift : n + 1 + rest.length = n + (rest.length + 1) := by omega
      rw [shift]
      cases rest with
      | nil => simp
      | cons next rest =>
          rw [List.getLast?_cons_cons]
          cases shape : (next :: rest).getLast? with
          | none => simp at shape
          | some final => simp

theorem span_start_snoc (segments : List Segment) (segment : Segment) :
    spanStart (segments ++ [segment]) =
      if segment.wide then
        if !segment.ordered then segments.length + 2
        else if segment.minimum < priorMaximum segments then segments.length + 1 else spanStart segments
      else segments.length + 2 := by
  simp only [spanStart, span_from_append, priorMaximum]
  have shift : 1 + segments.length = segments.length + 1 := by omega
  rw [shift]
  rfl

theorem span_from_bounds {n prior start : Nat} {segments : List Segment} (low : 1 ≤ start)
    (high : start ≤ n) :
    1 ≤ spanFrom n prior start segments ∧ spanFrom n prior start segments ≤ n + segments.length := by
  induction segments generalizing n prior start with
  | nil => exact ⟨low, high⟩
  | cons segment rest ih =>
      simp only [spanFrom, List.length_cons]
      have shift : n + (rest.length + 1) = n + 1 + rest.length := by omega
      rw [shift]
      apply ih
      · split
        · split
          · omega
          · split <;> omega
        · omega
      · split
        · split
          · omega
          · split <;> omega
        · omega

theorem span_start_bounds (segments : List Segment) :
    1 ≤ spanStart segments ∧ spanStart segments ≤ segments.length + 1 := by
  have bounds : 1 ≤ spanFrom 1 0 1 segments ∧ spanFrom 1 0 1 segments ≤ 1 + segments.length :=
    span_from_bounds (Nat.le_refl 1) (Nat.le_refl 1)
  rw [Nat.add_comm] at bounds
  exact bounds

end Chains

end Timelite.Layout
