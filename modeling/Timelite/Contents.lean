import Timelite.WalLaws

/-!
What a pair holds, apart from its bytes: the installed segments, the batches
pending in the WAL, the last installed sequence number and the time floor of
the installed data. The three writers of the API are operations on it.
-/
namespace Timelite.Contents
open Codec Layout HeaderWalk WalLaws Spans

structure Content where
  segments : List Segment
  pending : List Batch
  installed : Nat
  installedTime : Nat
  increasing : Increasing 0 segments
  covered : lastSequence segments ≤ installed
  numbered : installed + pending.length ≤ uint64Max
  timed : installedTime ≤ uint64Max
  room : 160 + extent segments ≤ databaseCapacity
  fits : 32 + framesSize pending ≤ walCapacity
  deriving Repr

namespace Content

/-- The last sequence number ever assigned. -/
def high (content : Content) : Nat := content.installed + content.pending.length

/-- The timestamp of the last record ever committed. -/
def floor (content : Content) : Nat := lastTimeOf content.pending content.installedTime

def dataEnd (content : Content) : Nat := 160 + extent content.segments

def walEnd (content : Content) : Nat := 32 + framesSize content.pending

def queued (content : Content) : List (Nat × Batch) := number (content.installed + 1) content.pending

/-- The batches a reader sees, with their sequence numbers. -/
def exposed (content : Content) : List (Nat × Batch) :=
  content.segments.flatMap Segment.numbered ++ content.queued

def empty : Content where
  segments := []
  pending := []
  installed := 0
  installedTime := 0
  increasing := trivial
  covered := Nat.le_refl 0
  numbered := by decide
  timed := by decide
  room := by decide
  fits := by decide

end Content

section Increasing

theorem increasing_weaken {floor floor' : Nat} {segments : List Segment} (lower : floor' ≤ floor)
    (increasing : Increasing floor segments) : Increasing floor' segments := by
  cases segments with
  | nil => trivial
  | cons segment rest => exact ⟨lt_of_le_of_lt lower increasing.1, increasing.2⟩

theorem increasing_filter (keep : Segment → Bool) {floor : Nat} {segments : List Segment}
    (increasing : Increasing floor segments) : Increasing floor (segments.filter keep) := by
  induction segments generalizing floor with
  | nil => trivial
  | cons segment rest ih =>
      have inside := segment.first_le_last
      rw [List.filter_cons]
      split
      · exact ⟨increasing.1, ih increasing.2⟩
      · exact increasing_weaken (by have := increasing.1; omega) (ih increasing.2)

-- Every segment ends at or before the last sequence number of the chain.
theorem last_le_of_mem {floor : Nat} {segments : List Segment} (increasing : Increasing floor segments)
    {segment : Segment} (member : segment ∈ segments) :
    floor < segment.first ∧ segment.last ≤ lastSequence segments := by
  induction segments generalizing floor segment with
  | nil => cases member
  | cons head rest ih =>
      have inside := head.first_le_last
      cases rest with
      | nil =>
          rw [List.mem_singleton] at member
          subst member
          exact ⟨increasing.1, Nat.le_refl _⟩
      | cons next rest =>
          have tail : lastSequence (head :: next :: rest) = lastSequence (next :: rest) := by
            simp [lastSequence, List.getLast?_cons_cons]
          rw [tail]
          rcases List.mem_cons.mp member with same | later
          · subst same
            have step := ih increasing.2 (List.mem_cons_self)
            have first := next.first_le_last
            exact ⟨increasing.1, by have := step.2; have := step.1; omega⟩
          · have step := ih increasing.2 later
            exact ⟨by have := increasing.1; have := step.1; omega, step.2⟩

theorem last_sequence_filter (keep : Segment → Bool) {floor : Nat} {segments : List Segment}
    (increasing : Increasing floor segments) :
    lastSequence (segments.filter keep) ≤ lastSequence segments := by
  cases shape : (segments.filter keep).getLast? with
  | none => simp [lastSequence, shape]
  | some segment =>
      have member := List.mem_of_getLast? shape
      have bound := (last_le_of_mem increasing (List.mem_filter.mp member).1).2
      simpa [lastSequence, shape] using bound

theorem count_le_last {floor : Nat} {segments : List Segment} (increasing : Increasing floor segments) :
    segments = [] ∨ floor + segments.length ≤ lastSequence segments := by
  induction segments generalizing floor with
  | nil => exact .inl rfl
  | cons segment rest ih =>
      right
      have inside := segment.first_le_last
      have above := increasing.1
      rcases ih increasing.2 with none | more
      · subst none
        simp only [lastSequence, List.getLast?_singleton, Option.map_some, Option.getD_some,
          List.length_singleton]
        omega
      · cases rest with
        | nil =>
            simp only [lastSequence, List.getLast?_singleton, Option.map_some, Option.getD_some,
              List.length_singleton]
            omega
        | cons next rest =>
            have tail : lastSequence (segment :: next :: rest) = lastSequence (next :: rest) := by
              simp [lastSequence, List.getLast?_cons_cons]
            rw [tail, List.length_cons]
            omega

theorem extent_filter (keep : Segment → Bool) (segments : List Segment) :
    extent (segments.filter keep) ≤ extent segments := by
  induction segments with
  | nil => simp
  | cons segment rest ih =>
      rw [List.filter_cons]
      split <;> simp only [extent_cons] <;> omega

end Increasing

section Times

theorem batch_time_le {batch : Batch} {time : Nat} (member : time ∈ batch.times) : time ≤ uint64Max := by
  obtain ⟨record, _, same⟩ := List.mem_map.mp member
  have := record.timestamp.toNat_lt
  simp only [uint64Max]
  omega

theorem time_le {batches : List Batch} {time : Nat} (member : time ∈ timesOf batches) :
    time ≤ uint64Max := by
  obtain ⟨batch, _, inside⟩ := List.mem_flatMap.mp member
  exact batch_time_le inside

theorem greatest_le (batches : List Batch) : greatestOf (timesOf batches) ≤ uint64Max := by
  by_cases none : timesOf batches = []
  · simp [none, uint64Max]
  · exact time_le (greatest_spec none).1

theorem final_time_le (batch : Batch) : Batch.finalTime batch ≤ uint64Max := by
  rw [← batch_final]
  exact batch_time_le (final_mem (batch_times_ne batch))

theorem last_time_le {batches : List Batch} {time : Nat} (small : time ≤ uint64Max) :
    lastTimeOf batches time ≤ uint64Max := by
  unfold lastTimeOf
  cases batches.getLast? with
  | none => exact small
  | some batch => exact final_time_le batch

theorem Content.floor_le (content : Content) : content.floor ≤ uint64Max := last_time_le content.timed

end Times

section Operations
variable (content : Content)

namespace Content

def append (batch : Batch) (more : content.high < uint64Max)
    (space : content.walEnd + batch.size ≤ walCapacity) : Content :=
  { content with
    pending := content.pending ++ [batch]
    numbered := by
      simp only [high] at more
      rw [List.length_append, List.length_singleton]
      omega
    fits := by
      simp only [walEnd] at space
      rw [frames_size_append, frames_size_cons, frames_size_nil]
      omega }

theorem pending_counted : 0 < content.installed + 1 := Nat.succ_pos _

theorem pending_bounded : content.installed + 1 + content.pending.length ≤ 18446744073709551616 := by
  have := content.numbered
  simp only [uint64Max] at this
  omega

theorem pending_fits : framesSize content.pending ≤ walCapacity - 32 := by
  have := content.fits
  omega

theorem pending_unknown : (if rising (timesOf content.pending) then Kind.span else .unordered) = .legacy →
    leastOf (timesOf content.pending) = 0 ∧ greatestOf (timesOf content.pending) = uint64Max := by
  split <;> simp

theorem pending_spans : leastOf (timesOf content.pending) ≤ greatestOf (timesOf content.pending) := least_le_greatest _

theorem pending_small : greatestOf (timesOf content.pending) ≤ uint64Max := greatest_le _

/-- The segment that installing the pending batches makes. -/
def pendingSegment (some : content.pending ≠ []) : Segment where
  kind := if rising (timesOf content.pending) then .span else .unordered
  first := content.installed + 1
  minimum := leastOf (timesOf content.pending)
  maximum := greatestOf (timesOf content.pending)
  batches := content.pending
  counted := content.pending_counted
  occupied := some
  bounded := content.pending_bounded
  fits := content.pending_fits
  spans := content.pending_spans
  small := content.pending_small
  unknown := content.pending_unknown

theorem pending_segment_last (some : content.pending ≠ []) :
    (content.pendingSegment some).last = content.high := by
  have := List.length_pos_iff.mpr some
  simp only [Segment.last, pendingSegment, high]
  omega

theorem pending_segment_wide (some : content.pending ≠ []) :
    (content.pendingSegment some).wide = true := by
  simp only [Segment.wide, pendingSegment]
  split <;> rfl

theorem pending_segment_ordered (some : content.pending ≠ []) :
    (content.pendingSegment some).ordered = rising (timesOf content.pending) := by
  simp only [Segment.ordered, pendingSegment]
  split <;> rename_i sorted <;> simp [sorted]

theorem pending_segment_size (some : content.pending ≠ []) :
    (content.pendingSegment some).size = 64 + framesSize content.pending := by
  have wide := (content.pendingSegment some).header_size_wide.mpr (content.pending_segment_wide some)
  rw [Segment.size, wide]
  rfl

theorem pending_segment_truthful (some : content.pending ≠ []) :
    (content.pendingSegment some).Truthful := by
  intro _
  have occupied : timesOf content.pending ≠ [] := by rwa [Ne, times_eq_nil]
  have least := least_spec occupied
  have greatest := greatest_spec occupied
  refine ⟨least.1, greatest.1, fun time member => ⟨least.2 time member, greatest.2 time member⟩, ?_⟩
  rw [pending_segment_ordered, rising_iff]
  rfl

theorem checkpoint_increasing (some : content.pending ≠ []) :
    Increasing 0 (content.segments ++ [content.pendingSegment some]) := by
  rw [increasing_append]
  refine ⟨content.increasing, ?_, trivial⟩
  have covered := content.covered
  simp only [lastSequence] at covered
  simp only [pendingSegment]
  omega

theorem checkpoint_covered (some : content.pending ≠ []) :
    lastSequence (content.segments ++ [content.pendingSegment some]) ≤ content.high := by
  rw [last_sequence_snoc, pending_segment_last]

theorem checkpoint_numbered : content.high + ([] : List Batch).length ≤ uint64Max := by
  have := content.numbered
  simpa [high] using this

theorem checkpoint_room (some : content.pending ≠ [])
    (space : content.dataEnd + (64 + framesSize content.pending) ≤ databaseCapacity) :
    160 + extent (content.segments ++ [content.pendingSegment some]) ≤ databaseCapacity := by
  simp only [dataEnd] at space
  rw [extent_append, extent_cons, extent_nil, pending_segment_size]
  omega

def checkpoint (some : content.pending ≠ [])
    (space : content.dataEnd + (64 + framesSize content.pending) ≤ databaseCapacity) : Content where
  segments := content.segments ++ [content.pendingSegment some]
  pending := []
  installed := content.high
  installedTime := content.floor
  increasing := content.checkpoint_increasing some
  covered := content.checkpoint_covered some
  numbered := content.checkpoint_numbered
  timed := content.floor_le
  room := content.checkpoint_room some space
  fits := empty.fits

end Content

/-- All records of the segment are older than the cutoff. -/
def expires (cutoff : Nat) (segment : Segment) : Bool :=
  if segment.wide then decide (segment.maximum < cutoff)
  else segment.times.all fun time => decide (time < cutoff)

theorem expires_iff {cutoff : Nat} {segment : Segment} (truthful : segment.Truthful) :
    expires cutoff segment = true ↔ ∀ time ∈ segment.times, time < cutoff := by
  unfold expires
  split
  · rename_i wide
    obtain ⟨_, top, bounds, _⟩ := truthful wide
    rw [decide_eq_true_eq]
    constructor
    · intro below time member
      have := (bounds time member).2
      omega
    · intro below
      exact below _ top
  · simp [List.all_eq_true]

namespace Content

def kept (cutoff : Nat) : List Segment := content.segments.filter fun s => !expires cutoff s

def expire (cutoff : Nat) : Content :=
  { content with
    segments := content.kept cutoff
    increasing := increasing_filter _ content.increasing
    covered := le_trans (last_sequence_filter _ content.increasing) content.covered
    room := by
      have := extent_filter (fun s => !expires cutoff s) content.segments
      have := content.room
      simp only [kept]
      omega }

end Content

end Operations

end Timelite.Contents
