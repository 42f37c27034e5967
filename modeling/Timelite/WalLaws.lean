import Timelite.SlotLaws
import Timelite.Spans
import Timelite.BatchApi

/-!
The WAL scan of open against the frames of the pending batches: what it has
noted after any number of frames, and the three ways it ends.
-/
namespace Timelite.WalLaws
open ByteFile Program Codec CodecLaws Backend BackendLaws Layout FrameLaws HeaderWalk Reader BatchApi Spans

section Notes

/-- What the scan has noted of batches whose predecessor is `start`. -/
def scanned (start : Nat) (batches : List Batch) : WalScan where
  offset := 32 + framesSize batches
  sequence := start + batches.length
  first := firstOf (timesOf batches)
  minimum := leastOf (timesOf batches)
  maximum := greatestOf (timesOf batches)
  last := finalOf (timesOf batches)
  ordered := rising (timesOf batches)

@[simp] theorem times_nil : timesOf [] = [] := rfl

@[simp] theorem times_cons (batch : Batch) (rest : List Batch) :
    timesOf (batch :: rest) = batch.times ++ timesOf rest := rfl

@[simp] theorem times_append (left right : List Batch) :
    timesOf (left ++ right) = timesOf left ++ timesOf right := by
  simp [timesOf]

theorem batch_times_ne (batch : Batch) : batch.times ≠ [] := by
  simp [Batch.times, batch.occupied]

theorem times_eq_nil {batches : List Batch} : timesOf batches = [] ↔ batches = [] := by
  constructor
  · intro empty
    cases batches with
    | nil => rfl
    | cons batch rest =>
        rw [times_cons, List.append_eq_nil_iff] at empty
        exact absurd empty.1 (batch_times_ne batch)
  · rintro rfl
    rfl

theorem segment_times_ne (segment : Segment) : segment.times ≠ [] := by
  rw [Segment.times, Ne, times_eq_nil]
  exact segment.occupied

theorem batch_final (batch : Batch) : finalOf batch.times = Batch.finalTime batch := by
  simp [finalOf, Batch.times, Batch.finalTime, List.getLast?_eq_some_getLast batch.occupied]

theorem batch_first (batch : Batch) : firstOf batch.times = Batch.firstTime batch := by
  simp [firstOf, Batch.times, Batch.firstTime, List.head?_eq_some_head batch.occupied]

theorem final_times (batches : List Batch) (time : Nat) (some : batches ≠ []) :
    finalOf (timesOf batches) = lastTimeOf batches time := by
  rcases List.eq_nil_or_concat batches with none | ⟨front, batch, shape⟩
  · exact absurd none some
  · rw [List.concat_eq_append] at shape
    subst shape
    rw [times_append, final_append, if_neg (by rw [times_eq_nil]; simp), last_time_snoc, times_cons,
      times_nil, List.append_nil, batch_final]

theorem start_scan (start : Nat) : startScan start = scanned start [] := by
  simp [startScan, scanned]

-- The scan with the times `seen` noted.
def noted (scan : WalScan) (seen : List Nat) : WalScan :=
  { scan with first := firstOf seen, minimum := leastOf seen, maximum := greatestOf seen,
              last := finalOf seen, ordered := rising seen }

theorem noted_note (scan : WalScan) (seen : List Nat) (time : Nat) :
    (noted scan seen).note seen.isEmpty time = noted scan (seen ++ [time]) := by
  simp only [noted, WalScan.note, least_snoc, greatest_snoc, first_append, final_snoc, rising_snoc]
  by_cases empty : seen = []
  · simp [empty, firstOf]
  · have occupied : seen.isEmpty = false := by simpa using empty
    simp only [empty, occupied, if_false, Bool.false_eq_true, Bool.false_or]
    rfl

theorem noted_fold {scan : WalScan} {batches : List Batch} {sequence : Nat} {batch : Batch} {count : Nat}
    (place : scan.offset = 32 + framesSize batches) (inside : count ≤ batch.records.length) :
    (List.range count).foldl
        (fun acc i => acc.note (decide (scan.offset = 32 ∧ i = 0))
          (frameTime (frameOf sequence batch).bytes i)) (noted scan (timesOf batches)) =
      noted scan (timesOf batches ++ batch.times.take count) := by
  induction count with
  | zero => simp
  | succ count ih =>
      have bound : count < batch.records.length := by omega
      have found : batch.records[count]? = some batch.records[count] := List.getElem?_eq_getElem bound
      have time := frame_of_time sequence batch found
      have next : batch.times.take (count + 1) =
          batch.times.take count ++ [batch.records[count].timestamp.toNat] := by
        rw [Batch.times, List.take_add_one, List.getElem?_map, found]
        rfl
      have start : decide (scan.offset = 32 ∧ count = 0) =
          (timesOf batches ++ batch.times.take count).isEmpty := by
        rw [Bool.eq_iff_iff, decide_eq_true_eq, List.isEmpty_iff, place, List.append_eq_nil_iff, times_eq_nil, ← frames_size_eq_zero]
        constructor
        · rintro ⟨empty, zero⟩
          exact ⟨by omega, by simp [zero]⟩
        · rintro ⟨empty, none⟩
          refine ⟨by omega, ?_⟩
          have length := congrArg List.length none
          simp only [Batch.times, List.length_take, List.length_map, List.length_nil] at length
          omega
      rw [List.range_succ, List.foldl_append, ih (by omega), List.foldl_cons, List.foldl_nil, time, start,
        noted_note, next, List.append_assoc]

theorem scanned_frame {start : Nat} {batches : List Batch} {batch : Batch} {sequence : Nat}
    (small : start + batches.length + 1 < 18446744073709551616) :
    (scanned start batches).frame (frameOf sequence batch) = scanned start (batches ++ [batch]) := by
  have same : noted (scanned start batches) (timesOf batches) = scanned start batches := rfl
  have place : (scanned start batches).offset = 32 + framesSize batches := rfl
  have fold := @noted_fold _ _ sequence batch _ place (Nat.le_refl _)
  have all : batch.times.take batch.records.length = batch.times := by
    apply List.take_of_length_le
    simp [Batch.times]
  rw [same, all] at fold
  rw [WalScan.frame, frame_of_records, fold]
  simp only [noted, scanned, frame_of_length, times_append, times_cons, times_nil, List.append_nil,
    frames_size_append, frames_size_cons, frames_size_nil, List.length_append, List.length_singleton]
  rw [next64_eq small]
  simp only [WalScan.mk.injEq, and_true]
  omega

end Notes

section Scanning
variable {store : Store} {start size : Nat} {stale : Bool} {batches : List Batch}

theorem reads_scanWal (size : Nat) (stale : Bool) (fuel : Nat) (scan : WalScan) :
    Reads (scanWal size stale fuel scan) := by
  induction fuel generalizing scan with
  | zero => exact reads_pure _
  | succ fuel ih =>
      refine reads_ite ?_ (reads_pure _)
      refine reads_examine (reads_readFrame _ _ _ _) (fun code => rfl) fun result => ?_
      cases result with
      | ok frame => exact ih _
      | error error =>
          cases error with
          | endOfData => exact reads_ite (reads_fail _) (reads_pure _)
          | _ => exact reads_done _

-- The frames `rest` that follow `done` are noted one by one.
theorem scan_frames {done rest : List Batch} {fuel : Nat}
    (held : Holds (store.content .wal) (32 + framesSize done) (frames (start + done.length + 1) rest))
    (fits : 32 + framesSize done + framesSize rest ≤ size)
    (small : start + done.length + rest.length < 18446744073709551616) :
    on (scanWal size stale (rest.length + fuel) (scanned start done)) store =
      on (scanWal size stale fuel (scanned start (done ++ rest))) store := by
  induction rest generalizing done with
  | nil => simp
  | cons batch rest ih =>
      have least := batch.size_ge
      rw [frames_size_cons] at fits
      rw [List.length_cons] at small
      rw [frames_cons, holds_append, frame_length] at held
      obtain ⟨first, others⟩ := held
      have room : 32 + framesSize done + batch.size ≤ size := by omega
      have read := read_frame first room (by omega)
      have shift : (batch :: rest).length + fuel = rest.length + fuel + 1 := by
        rw [List.length_cons]
        omega
      have next : next64 (start + done.length) = start + done.length + 1 := next64_eq (by omega)
      rw [shift, scanWal, if_pos (by simp only [scanned]; omega), on_examine]
      simp only [scanned] at read ⊢
      rw [next, read]
      have step : (scanned start done).frame (frameOf (start + done.length + 1) batch) =
          scanned start (done ++ [batch]) := scanned_frame (by omega)
      simp only [scanned] at step
      simp only [step]
      have place : 32 + framesSize (done ++ [batch]) = 32 + framesSize done + batch.size := by
        simp only [frames_size_append, frames_size_cons, frames_size_nil]
        omega
      have later : Holds (store.content .wal) (32 + framesSize (done ++ [batch]))
          (frames (start + (done ++ [batch]).length + 1) rest) := by
        rw [place, List.length_append, List.length_singleton]
        have same : start + (done.length + 1) + 1 = start + done.length + 1 + 1 := by omega
        rw [same]
        exact others
      have rested := ih later (by rw [place]; omega) (by rw [List.length_append, List.length_singleton]; omega)
      rw [List.append_assoc, List.singleton_append] at rested
      exact rested

theorem scan_all {fuel : Nat} (held : Holds (store.content .wal) 32 (frames (start + 1) batches))
    (fits : 32 + framesSize batches ≤ size) (enough : batches.length ≤ fuel)
    (small : start + batches.length < 18446744073709551616) :
    on (scanWal size stale fuel (startScan start)) store =
      on (scanWal size stale (fuel - batches.length) (scanned start batches)) store := by
  have ran := @scan_frames store start size stale [] batches (fuel - batches.length) (by simpa using held)
    (by simpa using fits) (by simpa using small)
  have whole : batches.length + (fuel - batches.length) = fuel := by omega
  rw [List.nil_append, whole] at ran
  rw [start_scan, ran]

theorem scan_end {fuel : Nat} (whole : size = 32 + framesSize batches) :
    on (scanWal size stale fuel (scanned start batches)) store = (.ok (scanned start batches), store) := by
  cases fuel with
  | zero => rfl
  | succ fuel =>
      rw [scanWal, if_neg (by simp only [scanned]; omega)]
      rfl

/-- Bytes after the committed frames that a cut append leaves: a proper prefix
of the next frame. -/
inductive Torn (sequence : Nat) : Bytes → Prop where
  | none : Torn sequence []
  | cut (batch : Batch) (count : Nat) (short : count < batch.size) :
      Torn sequence ((frame sequence batch.records).take count)

-- The scan decides about nothing or about a whole header.
def Readable (tail : Bytes) : Prop := tail = [] ∨ 32 ≤ tail.length

theorem torn_header {sequence count : Nat} {batch : Batch} (header : 32 ≤ count) :
    Holds ((frame sequence batch.records).take count) 0 (frameHeader sequence batch.records.length) := by
  have front := frame_header sequence batch.records
  rw [holds_iff] at front ⊢
  intro i inside
  rw [frame_header_length] at inside
  rw [← front i (by simpa using inside), Nat.zero_add, List.getElem?_take, if_pos (by omega)]

theorem header_ne (sequence count : Nat) : frameHeader sequence count ≠ [] := by
  intro none
  have := frame_header_length sequence count
  rw [none] at this
  simp at this

theorem scan_torn {tail : Bytes} {fuel : Nat} (torn : Torn (start + batches.length + 1) tail)
    (readable : Readable tail)
    (held : Holds (store.content .wal) (32 + framesSize batches) tail)
    (whole : size = 32 + framesSize batches + tail.length)
    (small : tail ≠ [] → start + batches.length + 1 < 18446744073709551616) :
    on (scanWal size false fuel (scanned start batches)) store = (.ok (scanned start batches), store) := by
  rcases readable with none | header
  · subst none
    exact scan_end whole
  have small := small (by rintro rfl; simp at header)
  cases torn with
  | none => simp at header
  | cut batch count short =>
      have length : ((frame (start + batches.length + 1) batch.records).take count).length = count := by
        simp only [List.length_take, frame_length]
        simp only [Batch.size] at short
        omega
      rw [length] at whole header
      cases fuel with
      | zero => rfl
      | succ fuel =>
          have lies := held.within (torn_header header) (header_ne _ _)
          rw [Nat.add_zero] at lies
          have room : 32 + framesSize batches + 32 ≤ size := by omega
          have read := read_frame_cut lies room (by omega) (by omega)
          have next : next64 (start + batches.length) = start + batches.length + 1 := next64_eq (by omega)
          rw [scanWal, if_pos (by simp only [scanned]; omega), on_examine]
          simp only [scanned] at read ⊢
          rw [next, read]
          rfl

-- Fewer bytes than a header are damage.
theorem scan_stuck {fuel : Nat} (more : 32 + framesSize batches < size)
    (near : size < 32 + framesSize batches + 32) (enough : 0 < fuel) :
    on (scanWal size stale fuel (scanned start batches)) store = (.error .invalidDatabase, store) := by
  obtain ⟨fuel, rfl⟩ : ∃ k, fuel = k + 1 := ⟨fuel - 1, by omega⟩
  rw [scanWal, if_pos (by simp only [scanned]; omega), on_examine]
  simp only [scanned]
  rw [read_frame_short (by omega)]
  rfl

-- The scan stops at a first frame that is not the next one.
theorem scan_other {fuel sequence count : Nat} (more : 32 < size) (enough : 0 < fuel)
    (held : Holds (store.content .wal) 32 (frameHeader sequence count)) (small : sequence < 18446744073709551616)
    (other : sequence ≠ next64 start) :
    on (scanWal size stale fuel (startScan start)) store = (.error .invalidDatabase, store) := by
  obtain ⟨fuel, rfl⟩ : ∃ k, fuel = k + 1 := ⟨fuel - 1, by omega⟩
  rw [scanWal, if_pos (show (startScan start).offset < size from more), on_examine]
  simp only [startScan]
  rw [read_frame_other held small other]
  rfl

theorem reads_staleSequence (installed size : Nat) : Reads (staleSequence installed size) :=
  reads_ite (reads_bind (reads_read_exact _ _ _) fun _ => reads_bind (reads_require _ _) fun _ =>
    reads_pure _) (reads_pure _)

theorem stale_none {installed : Nat} (bare : size ≤ 32) :
    on (staleSequence installed size) store = (.ok none, store) := by
  rw [staleSequence, if_neg (by omega)]
  rfl

-- The first frame decides whether the WAL is a leftover.
theorem stale_header {installed sequence : Nat} {batch : Batch} (more : 32 < size)
    (held : Holds (store.content .wal) 32 (frameHeader sequence batch.records.length))
    (small : sequence < 18446744073709551616) :
    on (staleSequence installed size) store =
      (.ok (if sequence ≠ 0 ∧ sequence ≤ installed then some (sequence - 1) else none), store) := by
  have self := holds_self (frameHeader sequence batch.records.length)
  rw [staleSequence, if_pos more, on_bind_ok (on_read_holds held (frame_header_length _ _)),
    on_require_bind, if_pos (header_checks self), header_sequence self small]
  rfl

theorem stale_short {installed : Nat} (more : 32 < size) (near : (store.content .wal).length < 64) :
    on (staleSequence installed size) store = (.error .invalidDatabase, store) := by
  rw [staleSequence, if_pos more, on_bind_error (on_read_short near (by omega))]

end Scanning

end Timelite.WalLaws
