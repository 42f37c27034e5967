import Timelite.Enumerating
import Timelite.Querying

/-!
What open has put into the files of a handle, whatever their headers and sequence
numbers say, and how its cursor goes through it: segments one after the other,
then the frames of the WAL, numbered on past the largest number to zero.
-/
namespace Timelite.Traversing
open ByteFile Program Codec CodecLaws Backend BackendLaws Layout FrameLaws HeaderWalk SegmentLaws Images Relocation Reader
  Retention BatchApi Databases Grammar Cursor Seeking Ranging Observing System Undisturbed Opaque Refusing Walking Lifting Touring Admitting Enumerating

section Filing
variable {store after : Store} {v : Validated} {finished : Finished} {db db' : Batches} {segments : List Segment}
  {pending : List Batch}

/-- The segments and the WAL batches that the files of a handle hold. -/
structure Filed (store : Store) (db : Batches) (segments : List Segment) (pending : List Batch) : Prop where
  indexed : Indexed store db segments
  whole : db.dataEnd = 160 + extent segments
  spanStart : db.spanStart = Layout.spanStart segments
  sequenced : Sequenced db.retention 0 segments
  covered : lastSequence segments ≤ db.installed
  top : db.installed ≤ uint64Max
  held : Holds (store.content .wal) 32 (frames (db.installed + 1) pending)
  walEnd : db.walEnd = 32 + framesSize pending
  sequence : db.sequence = (db.installed + pending.length) % 18446744073709551616

theorem Filed.moved (filed : Filed store db segments pending) (moved : Moved db db') : Filed store db' segments pending := by
  rw [← moved]
  exact ⟨⟨filed.indexed.chained, filed.indexed.generation, filed.indexed.lastSegment⟩, filed.whole, filed.spanStart,
    filed.sequenced, filed.covered, filed.top, filed.held, filed.walEnd, filed.sequence⟩

end Filing

section Numbering

/-- Consecutive batches with their sequence numbers, past the largest one to zero. -/
def wrapped : (sequence : Nat) → List Batch → List (Nat × Batch)
  | _, [] => []
  | sequence, batch :: rest => (sequence, batch) :: wrapped (next64 sequence) rest

-- As long as the numbers are small enough they are counted on.
theorem wrapped_number {sequence : Nat} {batches : List Batch} (small : sequence + batches.length ≤ 18446744073709551616) :
    wrapped sequence batches = number sequence batches := by
  induction batches generalizing sequence with
  | nil => rfl
  | cons batch rest ih =>
      rw [List.length_cons] at small
      rw [wrapped, number]
      cases rest with
      | nil => rfl
      | cons next rest =>
          rw [List.length_cons] at small ih
          rw [next64, Nat.mod_eq_of_lt (by omega), ih (by omega)]

/-- The batches that the files of a handle hold, in the order in which the cursor comes to them. -/
def entries (db : Batches) (segments : List Segment) (pending : List Batch) : List (Nat × Batch) :=
  segments.flatMap Segment.numbered ++ wrapped (next64 db.installed) pending

end Numbering

section Cursors
variable {store : Store} {db db' : Batches} {segments back : List Segment} {pending : List Batch}
  {rest : List (Nat × Batch)}

/-- Where the cursor stands, with `rest` in front of it. -/
inductive Stands (store : Store) (db : Batches) (segments : List Segment) (pending : List Batch) :
    List (Nat × Batch) → Prop where
  | body (front back : List Segment) (todo : List Batch) (sequence : Nat) (split : segments = front ++ back)
      (outside : db.inWal = false) (ends : db.segmentEnd = 160 + extent front)
      (place : db.cursor + framesSize todo = db.segmentEnd)
      (held : Holds (store.content .database) db.cursor (frames sequence todo))
      (small : sequence + todo.length ≤ 18446744073709551616) (counted : 0 < sequence)
      (expects : db.readSequence = sequence % 18446744073709551616)
      (next : Sequenced db.retention (sequence + todo.length - 1) back) :
      Stands store db segments pending (number sequence todo ++ entries db back pending)
  | wal (todo : List Batch) (inside : db.inWal = true) (small : db.readSequence < 18446744073709551616)
      (held : Holds (store.content .wal) db.cursor (frames db.readSequence todo))
      (whole : db.walEnd = db.cursor + framesSize todo) :
      Stands store db segments pending (wrapped db.readSequence todo)

/-- A cursor among the files of a handle. -/
def Placed (store : Store) (segments : List Segment) (pending : List Batch) (db : Batches) (rest : List (Nat × Batch)) :
    Prop := Filed store db segments pending ∧ Stands store db segments pending rest

end Cursors

section Landing
variable {store : Store} {db : Batches} {segments : List Segment} {pending : List Batch} {time : Nat}

/-- The scans of the segments that are not known to be ordered, each up to the last number of its segment. -/
def pass (time : Nat) (db : Batches) (pending : List Batch) : (count : Nat) → List Segment → Option (List (Nat × Batch))
  | 0, _ => none
  | _ + 1, [] => none
  | count + 1, segment :: rest =>
      (scan time segment.last segment.first (entries db (segment :: rest) pending)).or (pass time db pending count rest)

/-- The ordered segments whose header states a time as late as this, and those behind them. -/
def reaching (time : Nat) (segments : List Segment) : List Segment :=
  (suffix segments).dropWhile fun segment => decide (segment.maximum < time)

/-- The batches from the one on that seek leaves the cursor at; none when it reports the end. -/
def landing (time : Nat) (db : Batches) (segments : List Segment) (pending : List Batch) : Option (List (Nat × Batch)) :=
  (pass time db pending (spanStart segments - 1) segments).or
    (scan time db.sequence (((reaching time segments).head?.map Segment.first).getD (next64 db.installed))
      (entries db (reaching time segments) pending))

-- The batches that no scan stops at.
theorem drop_early {front back : List (Nat × Batch)} (early : front.find? (reaches time) = none) :
    (front ++ back).dropWhile (fun item => !reaches time item) = back.dropWhile fun item => !reaches time item := by
  refine List.dropWhile_append_of_pos fun item member => ?_
  have none := List.find?_eq_none.mp early item member
  simpa using none

/-- Where the numbers increase, the scans of the first segments together find their first batch that reaches the time. -/
theorem pass_first {count : Nat} (increasing : (entries db segments pending).Pairwise fun a b => a.1 < b.1)
    (small : ∀ item ∈ entries db segments pending, item.1 < 18446744073709551616) (inside : count ≤ segments.length) :
    match ((segments.take count).flatMap Segment.numbered).find? (reaches time) with
    | some _ => pass time db pending count segments =
        some ((entries db segments pending).dropWhile fun item => !reaches time item)
    | none => pass time db pending count segments = none := by
  induction count generalizing segments with
  | zero => rfl
  | succ count ih =>
      cases segments with
      | nil => exact absurd inside (Nat.not_succ_le_zero count)
      | cons segment rest =>
          have shape : entries db (segment :: rest) pending = segment.numbered ++ entries db rest pending := by
            rw [entries, List.flatMap_cons, List.append_assoc]
            rfl
          have some := segment.length_pos
          have bounds : ∀ item ∈ segment.numbered, segment.first ≤ item.1 ∧ item.1 ≤ segment.last := fun item member => by
            have bounds := number_bounds member
            simp only [Segment.last]
            omega
          obtain ⟨first, batches, head⟩ := List.exists_cons_of_ne_nil segment.occupied
          have starts : (segment.first, first) ∈ segment.numbered := by
            rw [Segment.numbered, head, number]
            exact List.mem_cons_self
          rw [shape] at increasing small ⊢
          have apart := List.pairwise_append.mp increasing
          have scanned := @scan_near time segment.last segment.numbered (entries db rest pending) segment.first increasing small
            (fun item member => (bounds item member).2)
            (fun item member => (List.mem_append.mp member).elim (fun here => (bounds item here).1)
              fun behind => Nat.le_of_lt (apart.2.2 _ starts item behind))
            (.inr ⟨fun none => (List.ne_nil_of_mem starts none).elim, fun item last => by
              have final := number_last last
              simp only [Segment.last]
              omega⟩)
          rw [List.take_succ_cons, List.flatMap_cons, List.find?_append, pass, shape]
          cases found : segment.numbered.find? (reaches time) with
          | some item =>
              rw [found] at scanned
              obtain ⟨later, landed, dropped⟩ := scanned
              rw [landed, dropped]
              rfl
          | none =>
              rw [found] at scanned
              rw [show scan time segment.last segment.first (segment.numbered ++ entries db rest pending) = none from scanned,
                Option.none_or, Option.none_or, drop_early found]
              exact ih apart.2.1 (fun item member => small item (List.mem_append_right _ member)) (by simpa using inside)

theorem entries_increasing (filed : Filed store db segments pending) (unwrapped : db.installed + pending.length ≤ uint64Max) :
    (entries db segments pending).Pairwise (fun a b => a.1 < b.1) ∧
      ∀ item ∈ entries db segments pending, item.1 ≤ db.sequence := by
  have increasing := filed.sequenced.1
  have covered := filed.covered
  have queue : wrapped (next64 db.installed) pending = number (db.installed + 1) pending := by
    simp only [uint64Max] at unwrapped
    cases pending with
    | nil => rfl
    | cons batch rest =>
        rw [List.length_cons] at unwrapped
        rw [next64, Nat.mod_eq_of_lt (by omega), wrapped_number (by rw [List.length_cons]; omega)]
  have sequence := filed.sequence
  simp only [uint64Max] at unwrapped
  rw [Nat.mod_eq_of_lt (by omega)] at sequence
  rw [entries, queue]
  have below : ∀ item ∈ segments.flatMap Segment.numbered, item.1 ≤ db.installed := fun item member => by
    obtain ⟨segment, inside, numbered⟩ := List.mem_flatMap.mp member
    have bounds := number_bounds numbered
    have last := (Contents.last_le_of_mem increasing inside).2
    simp only [Segment.last] at last
    omega
  constructor
  · refine List.pairwise_append.mpr ⟨segments_increasing increasing, number_increasing _ _, fun a first b second => ?_⟩
    have high := number_bounds second
    have low := below a first
    omega
  · intro item member
    rcases List.mem_append.mp member with here | behind
    · have low := below item here
      omega
    · have high := number_bounds behind
      omega

theorem entries_head {item : Nat × Batch} {later : List (Nat × Batch)} (shape : entries db segments pending = item :: later) :
    item.1 = (segments.head?.map Segment.first).getD (next64 db.installed) := by
  cases segments with
  | nil =>
      cases pending with
      | nil => cases shape
      | cons batch rest =>
          cases shape
          rfl
  | cons segment rest =>
      obtain ⟨first, batches, head⟩ := List.exists_cons_of_ne_nil segment.occupied
      rw [entries, List.flatMap_cons, Segment.numbered, head, number] at shape
      cases shape
      rfl

/-- Where the headers are true and the numbers do not wrap, seek lands at the first batch whose last record is at or after
the time. -/
theorem landing_first (filed : Filed store db segments pending) (truthful : ∀ segment ∈ segments, segment.Truthful)
    (unwrapped : db.installed + pending.length ≤ uint64Max) :
    (landing time db segments pending).getD [] = (entries db segments pending).dropWhile fun item => !reaches time item := by
  obtain ⟨increasing, below⟩ := entries_increasing filed unwrapped
  have bounds := span_start_bounds segments
  have sequence := filed.sequence
  simp only [uint64Max] at unwrapped
  rw [Nat.mod_eq_of_lt (by omega)] at sequence
  have small : ∀ item ∈ entries db segments pending, item.1 < 18446744073709551616 := fun item member => by
    have bound := below item member
    omega
  have passed := @pass_first db segments pending time (spanStart segments - 1) increasing small (by omega)
  rw [landing]
  cases found : ((segments.take (spanStart segments - 1)).flatMap Segment.numbered).find? (reaches time) with
  | some item =>
      rw [found] at passed
      simp only at passed
      rw [passed]
      rfl
  | none =>
      rw [found] at passed
      simp only at passed
      -- The ordered segments in front of the scan are older, as their headers say.
      have older : (((suffix segments).takeWhile fun segment => decide (segment.maximum < time)).flatMap
          Segment.numbered).find? (reaches time) = none := by
        have kept : ∀ segment ∈ (suffix segments).takeWhile (fun segment => decide (segment.maximum < time)),
            segment ∈ suffix segments := fun segment member => (List.takeWhile_subset _) member
        exact find_older (fun segment member => truthful segment (List.mem_of_mem_drop (kept segment member)))
          (fun segment member => ordered_wide ((suffix_sorted truthful).1 segment (kept segment member)))
          fun segment member => of_decide_eq_true (List.all_eq_true.mp List.all_takeWhile segment member)
      have split : entries db segments pending = (segments.take (spanStart segments - 1)).flatMap Segment.numbered ++
          (((suffix segments).takeWhile fun segment => decide (segment.maximum < time)).flatMap Segment.numbered ++
            entries db (reaching time segments) pending) := by
        rw [entries, entries, ← List.append_assoc, ← List.append_assoc, ← List.flatMap_append, ← List.flatMap_append,
          List.append_assoc, reaching, List.takeWhile_append_dropWhile, suffix, List.take_append_drop]
      have behind : ∀ item ∈ entries db (reaching time segments) pending, item ∈ entries db segments pending :=
        fun item member => by
          rw [split]
          exact List.mem_append_right _ (List.mem_append_right _ member)
      rw [split] at increasing
      have rest := (List.pairwise_append.mp (List.pairwise_append.mp increasing).2.1).2.1
      have low : ∀ item ∈ entries db (reaching time segments) pending,
          ((reaching time segments).head?.map Segment.first).getD (next64 db.installed) ≤ item.1 := by
        intro item member
        obtain ⟨head, later, shape⟩ := List.exists_cons_of_ne_nil (List.ne_nil_of_mem member)
        rw [shape] at rest member
        rw [← entries_head shape]
        rcases List.mem_cons.mp member with rfl | inside
        · exact Nat.le_refl _
        · exact Nat.le_of_lt ((List.pairwise_cons.mp rest).1 item inside)
      have scanned := @scan_near time db.sequence (entries db (reaching time segments) pending) [] _
        (by rw [List.append_nil]; exact rest) (by rw [List.append_nil]; exact fun item member => small item (behind item member))
        (fun item member => below item (behind item member)) (by rw [List.append_nil]; exact low) (.inl rfl)
      rw [List.append_nil] at scanned
      rw [passed, Option.none_or, split, drop_early found, drop_early older]
      cases ends : (entries db (reaching time segments) pending).find? (reaches time) with
      | some item =>
          rw [ends] at scanned
          obtain ⟨later, landed, dropped⟩ := scanned
          rw [landed, dropped]
          rfl
      | none =>
          rw [ends] at scanned
          have none := @drop_early _ _ [] ends
          rw [List.append_nil] at none
          rw [none]
          exact congrArg (fun outcome => outcome.getD []) scanned

end Landing

section Ranges
variable {store : Store} {db db' : Batches} {segments : List Segment} {pending : List Batch} {rest : List (Nat × Batch)}
  {range : Range} {host : Host}

/-- The number from which on a range read may stop early. -/
def orderedFrom (db : Batches) (segments : List Segment) : Nat :=
  if db.walOrdered = false then db.sequence
  else
    match segments[db.spanStart - 1]? with
    | some segment =>
        if db.walEnd = 32 ∨ db.walFirstTime ≥
            (if db.retention then (segments.getLast?.map Segment.maximum).getD 0 else db.installedTime) then segment.first
        else next64 db.installed
    | none => next64 db.installed

end Ranges

end Timelite.Traversing
