import Timelite.Checkpointing

/-!
Relocating a chain: which segments a cutoff removes, what the survey counts, and
the copy of the kept segments behind or before the original with rebuilt links.
-/
namespace Timelite.Relocation
open ByteFile Program Durable Codec CodecLaws Backend BackendLaws Layout FrameLaws HeaderWalk Links SegmentLaws
  SlotLaws WalLaws Contents Images Crashes Databases Calls Checkpointing Reader Retention BatchApi Spans

section Expiry
variable {store : Store} {file : File} {limit : Nat}

theorem any_at_or_after (cutoff sequence : Nat) (batch : Batch) :
    anyFrameAtOrAfter cutoff (frameOf sequence batch) = batch.times.any fun time => decide (time ≥ cutoff) := by
  rw [anyFrameAtOrAfter, frame_of_records, Bool.eq_iff_iff, List.any_eq_true, List.any_eq_true]
  constructor
  · rintro ⟨i, member, late⟩
    rw [List.mem_range] at member
    rw [frame_of_time sequence batch (List.getElem?_eq_getElem member)] at late
    exact ⟨_, List.mem_map.mpr ⟨_, List.getElem_mem member, rfl⟩, late⟩
  · rintro ⟨time, member, late⟩
    obtain ⟨record, inside, same⟩ := List.mem_map.mp member
    obtain ⟨i, bound, found⟩ := List.mem_iff_getElem.mp inside
    refine ⟨i, List.mem_range.mpr bound, ?_⟩
    rw [frame_of_time sequence batch (List.getElem?_eq_getElem bound), found, same]
    exact late

theorem not_any (times : List Nat) (cutoff : Nat) :
    (!times.any fun time => decide (time ≥ cutoff)) = times.all fun time => decide (time < cutoff) := by
  rw [List.not_any_eq_all_not]
  congr 1
  funext time
  rw [Bool.eq_iff_iff]
  simp

theorem reads_expireFrames (limit cutoff fuel position sequence : Nat) (expires : Bool) :
    Reads (expireFrames limit cutoff fuel position sequence expires) := by
  induction fuel generalizing position sequence expires with
  | zero => exact reads_pure _
  | succ fuel ih =>
      unfold expireFrames
      refine reads_ite (reads_bind ?_ fun frame => ?_) (reads_pure _)
      · exact reads_complete (reads_readFrame _ _ _ _)
      · exact ih (position + frame.bytes.length) (next64 sequence) (expires && !anyFrameAtOrAfter cutoff frame)

theorem reads_segmentExpires (offset : Nat) (segment : SegmentInfo) (cutoff : Nat) :
    Reads (segmentExpires offset segment cutoff) := by
  unfold segmentExpires
  split
  · exact reads_pure _
  · refine reads_bind (reads_expireFrames _ _ _ _ _ _) fun found => ?_
    exact reads_bind (reads_require _ _) fun _ => reads_pure _

-- Sequences wrap only behind the last frame.
theorem next64_mod (sequence : Nat) :
    next64 (sequence % 18446744073709551616) = (sequence + 1) % 18446744073709551616 := by
  simp only [next64]
  omega

theorem expire_frames {cutoff fuel position sequence : Nat} {batches : List Batch} {expires : Bool}
    (held : Holds (store.content .database) position (frames sequence batches))
    (whole : limit = position + framesSize batches) (enough : framesSize batches ≤ fuel)
    (bounded : sequence + batches.length ≤ 18446744073709551616) :
    on (expireFrames limit cutoff fuel position (sequence % 18446744073709551616) expires) store =
      (.ok ((sequence + batches.length) % 18446744073709551616,
        expires && (timesOf batches).all fun time => decide (time < cutoff)), store) := by
  induction batches generalizing fuel position sequence expires with
  | nil =>
      rw [times_nil, List.all_nil, Bool.and_true, List.length_nil, Nat.add_zero]
      cases fuel with
      | zero => rfl
      | succ fuel =>
          rw [expireFrames, if_neg (by simp [whole])]
          rfl
  | cons batch rest ih =>
      have least := batch.size_ge
      rw [frames_size_cons] at whole enough
      rw [List.length_cons] at bounded
      obtain ⟨fuel, rfl⟩ : ∃ k, fuel = k + 1 := ⟨fuel - 1, by omega⟩
      rw [frames_cons, holds_append, frame_length] at held
      have small : sequence % 18446744073709551616 = sequence := Nat.mod_eq_of_lt (by omega)
      have room : position + batch.size ≤ limit := by omega
      have read := complete_frame held.1 room (by omega)
      have later : Holds (store.content .database) (position + batch.size) (frames (sequence + 1) rest) :=
        held.2
      have count : sequence + 1 + rest.length = sequence + (batch :: rest).length := by
        rw [List.length_cons]
        omega
      rw [← small] at read
      rw [expireFrames, if_pos (by omega), on_bind_ok read, frame_of_length, any_at_or_after, not_any,
        next64_mod, ih later (by omega) (by omega) (by omega), times_cons, List.all_append, ← Bool.and_assoc, count]

theorem prev_last (segment : Segment) :
    prev64 ((segment.first + segment.batches.length) % 18446744073709551616) = segment.last := by
  have bounded := segment.bounded
  have counted := segment.counted
  have some := segment.length_pos
  simp only [prev64, Segment.last, uint64Max]
  split <;> omega

theorem segment_expires {cutoff offset : Nat} {segment : Segment} {info : SegmentInfo}
    (held : Holds (store.content .database) (offset + segment.headerSize)
      (frames segment.first segment.batches))
    (header : info.headerSize = segment.headerSize) (body : info.body = segment.body)
    (first : info.first = segment.first) (last : info.last = segment.last)
    (maximum : info.maximum = segment.maximum) :
    on (segmentExpires offset info cutoff) store = (.ok (expires cutoff segment), store) := by
  unfold segmentExpires expires
  rw [header, body, first, last, maximum]
  rcases segment.header_size_cases with ⟨size, wide⟩ | ⟨size, narrow⟩
  · rw [if_pos (.inl size), if_pos wide]
    rfl
  · rw [narrow]
    by_cases zero : cutoff = 0
    · have legacy : segment.kind = .legacy := by simpa [Segment.wide] using narrow
      rw [if_pos (.inr zero), zero]
      obtain ⟨time, member⟩ := List.exists_mem_of_ne_nil _ (segment_times_ne segment)
      have some : ¬ (segment.times.all fun time => decide (time < 0)) = true := by
        intro all
        have := List.all_eq_true.mp all time member
        simp at this
      simp only [Bool.not_eq_true] at some
      simp only [Bool.false_eq_true, if_false, some]
      rfl
    · have small := segment.bounded
      have some := segment.length_pos
      rw [if_neg (by omega)]
      have whole : offset + segment.headerSize + segment.body =
          offset + segment.headerSize + framesSize segment.batches := rfl
      have enough : framesSize segment.batches ≤ segment.body := Nat.le_refl _
      have loop := @expire_frames _ _ cutoff _ _ _ _ true held whole enough small
      rw [Nat.mod_eq_of_lt (by omega)] at loop
      rw [on_bind_ok loop]
      simp only
      rw [on_require_bind, if_pos (prev_last segment)]
      rfl

theorem chained_expires {root : Nat} {done rest : List Segment} {segment : Segment}
    (chained : Chained store root limit (done ++ segment :: rest)) (cutoff : Nat) :
    on (segmentExpires (root + extent done) (infoAt root (done ++ segment :: rest) done.length segment) cutoff)
      store = (.ok (expires cutoff segment), store) :=
  segment_expires chained.frames_held rfl rfl rfl rfl rfl

theorem survey_segments {root cutoff fuel : Nat} {done rest : List Segment} {survey : Survey}
    (chained : Chained store root limit (done ++ rest)) (whole : limit = root + extent (done ++ rest))
    (enough : extent rest ≤ fuel) :
    on (surveySegments limit cutoff fuel (root + extent done) survey) store =
      (.ok ⟨survey.bytes + extent (rest.filter fun s => !expires cutoff s),
        survey.segments + (rest.filter fun s => !expires cutoff s).length,
        survey.live + live (rest.filter fun s => !expires cutoff s)⟩, store) := by
  induction rest generalizing done fuel survey with
  | nil =>
      rw [List.append_nil] at whole
      cases fuel with
      | zero => rfl
      | succ fuel =>
          rw [surveySegments, if_neg (by omega)]
          rfl
  | cons segment rest ih =>
      have least := segment.size_ge
      have joined : done ++ segment :: rest = (done ++ [segment]) ++ rest := by simp
      have sized : extent (done ++ segment :: rest) = extent done + (segment.size + extent rest) := by simp
      rw [extent_cons] at enough
      obtain ⟨fuel, rfl⟩ : ∃ k, fuel = k + 1 := ⟨fuel - 1, by omega⟩
      have expiry := chained_expires chained cutoff
      have place : root + extent done + segment.headerSize + segment.body = root + extent (done ++ [segment]) := by
        simp only [extent_append, extent_cons, extent_nil, Segment.size]
        omega
      have count := segment.count_eq
      rw [surveySegments, if_pos (by omega), on_bind_ok chained.read, on_bind_ok expiry, info_at_header,
        info_at_body, place, ih (by rw [← joined]; exact chained) (by rw [← joined]; exact whole) (by omega)]
      rw [List.filter_cons]
      cases gone : expires cutoff segment with
      | true => simp
      | false =>
          simp only [Bool.not_false, if_true, Bool.false_eq_true, if_false, extent_cons, List.length_cons,
            live_cons, info_at_first, info_at_last, Prod.mk.injEq, and_true,
            Except.ok.injEq, Survey.mk.injEq, Segment.size]
          omega

theorem reads_surveySegments (dataEnd cutoff fuel offset : Nat) (survey : Survey) :
    Reads (surveySegments dataEnd cutoff fuel offset survey) := by
  induction fuel generalizing offset survey with
  | zero => exact reads_pure _
  | succ fuel ih =>
      exact reads_ite (reads_bind (reads_readSegment _ _ _) fun _ =>
        reads_bind (reads_segmentExpires _ _ _) fun _ => ih _ _) (reads_pure _)

end Expiry

section Copying
variable {safe : Store → Prop} {store : Store} {limit low high : Nat}

-- What a wide header says comes before its links.
theorem segment_front (first last body minimum maximum previous skip : Nat) (ordered : Bool) :
    (encodeSegment first last body minimum maximum previous skip ordered).take 44 =
      (if ordered then spanMagic else unorderedMagic) ++ encode64 first ++ encode64 last ++ encode32 body ++
        encode64 minimum ++ encode64 maximum := by
  rw [encodeSegment, sealed]
  simp only [List.append_assoc]
  simp only [← List.append_assoc]
  rw [List.append_assoc, List.append_assoc]
  apply List.take_left'
  cases ordered <;> simp [spanMagic, unorderedMagic]

-- Only the links of a header depend on its place.
theorem relink_header (segment : Segment) (previous skip previous' skip' : Nat) :
    relink (segment.header previous skip) segment.headerSize previous' skip' =
      segment.header previous' skip' := by
  unfold relink
  rcases segment.header_size_cases with ⟨size, wide⟩ | ⟨size, narrow⟩
  · rw [if_pos size, Segment.header, Segment.header, if_pos wide, if_pos wide, segment_front, encodeSegment]
  · rw [if_neg (by omega), Segment.header, Segment.header, narrow]
    rfl

theorem copy_frames {fuel position destination sequence : Nat} {batches : List Batch}
    (bears : Bears safe low high) (kept : safe store)
    (held : Holds (store.content .database) position (frames sequence batches))
    (whole : limit = position + framesSize batches) (enough : framesSize batches ≤ fuel)
    (above : low ≤ destination) (below : destination + framesSize batches ≤ high)
    (apart : position + framesSize batches ≤ destination ∨ destination + framesSize batches ≤ position)
    (bounded : sequence + batches.length ≤ 18446744073709551616) :
    ∃ after, Runs safe (copyFrames limit fuel position destination (sequence % 18446744073709551616)) store
        (destination + framesSize batches, (sequence + batches.length) % 18446744073709551616) after ∧
      after.wal = store.wal ∧
      after.content .database = writeAt (store.content .database) destination (frames sequence batches) := by
  induction batches generalizing store fuel position destination sequence with
  | nil =>
      refine ⟨store, ?_, rfl, by simp⟩
      cases fuel with
      | zero => exact runs_pure kept _
      | succ fuel =>
          rw [copyFrames, if_neg (by simp [whole])]
          exact runs_pure kept _
  | cons batch rest ih =>
      have least := batch.size_ge
      rw [frames_size_cons] at whole enough below apart
      rw [List.length_cons] at bounded
      obtain ⟨fuel, rfl⟩ : ∃ k, fuel = k + 1 := ⟨fuel - 1, by omega⟩
      rw [frames_cons, holds_append, frame_length] at held
      have small : sequence % 18446744073709551616 = sequence := Nat.mod_eq_of_lt (by omega)
      have room : position + batch.size ≤ limit := by omega
      have read := complete_frame held.1 room (by omega)
      have size : (frame sequence batch.records).length = batch.size := by simp [Batch.size]
      have write := bears store destination (frame sequence batch.records) kept above (by rw [size]; omega)
      generalize middleEq : store.update .database (.write destination (frame sequence batch.records)) =
        middle at write
      have walSame : middle.wal = store.wal := by rw [← middleEq]; rfl
      have later : Holds (middle.content .database) (position + batch.size) (frames (sequence + 1) rest) := by
        rw [← middleEq, content_update_same]
        have back : Holds (store.content .database) (position + batch.size) (frames (sequence + 1) rest) :=
          held.2
        refine back.write _ _ ?_
        rw [frames_length, size]
        omega
      obtain ⟨after, runs, walAfter, database⟩ := ih write.safe_after later (by omega)
        (show framesSize rest ≤ fuel by omega) (show low ≤ destination + batch.size by omega) (by omega) (by omega)
        (by omega)
      refine ⟨after, ?_, walAfter.trans walSame, ?_⟩
      · have count : sequence + (batch :: rest).length = sequence + 1 + rest.length := by
          rw [List.length_cons]
          omega
        have place : destination + framesSize (batch :: rest) = destination + batch.size + framesSize rest := by
          rw [frames_size_cons]
          omega
        rw [copyFrames, if_pos (by omega), count, place, small]
        refine runs_bind ((reads_complete (reads_readFrame _ _ _ _)).runs kept read) (runs_bind write ?_)
        rw [frame_of_length]
        rw [← next64_mod, small] at runs
        exact runs
      · rw [database, ← middleEq, content_update_same]
        have joined := write_write (store.content .database) destination (frame sequence batch.records)
          (frames (sequence + 1) rest) (by intro none; rw [none] at size; simp at size; omega)
        rw [size] at joined
        exact joined

/-- How far a copy to `root` has come. -/
structure Copying (root : Nat) (kept : List Segment) (copy : Copy) : Prop where
  destination : copy.destination = root + extent kept
  previous : copy.previous = linkTo root kept kept.length
  count : copy.count = kept.length
  levels : Levels root kept copy.offsets

theorem copying_start (root : Nat) : Copying root [] ⟨root, 0, 0, List.replicate 24 0⟩ :=
  ⟨by simp, rfl, rfl, levels_start root⟩

/-- A segment at its new place, with the links of its new neighbours. -/
def copyImage (root : Nat) (kept : List Segment) (segment : Segment) : Bytes :=
  segment.image (linkTo root kept kept.length) (linkTo root kept (kept.length + 1 - lowBit (kept.length + 1)))

theorem copy_segment {root offset previous skip : Nat} {kept : List Segment} {segment : Segment}
    {info : SegmentInfo} {copy : Copy} (bears : Bears safe low high) (ready : safe store)
    (held : Holds (store.content .database) offset (segment.image previous skip))
    (header : info.headerSize = segment.headerSize) (body : info.body = segment.body)
    (first : info.first = segment.first) (last : info.last = segment.last)
    (copying : Copying root kept copy) (few : kept.length + 1 < 16777216)
    (above : low ≤ root + extent kept) (below : root + extent kept + segment.size ≤ high)
    (apart : offset + segment.size ≤ root + extent kept ∨ root + extent kept + segment.size ≤ offset) :
    ∃ after copied, Runs safe (copySegment offset info copy) store copied after ∧
      Copying root (kept ++ [segment]) copied ∧ after.wal = store.wal ∧
      after.content .database =
        writeAt (store.content .database) (root + extent kept) (copyImage root kept segment) := by
  have size : segment.size = segment.headerSize + segment.body := rfl
  have body' : segment.body = framesSize segment.batches := rfl
  have headerLength := segment.header_length
  have some : 0 < segment.headerSize := by
    rcases segment.header_size_cases with ⟨wide, _⟩ | ⟨narrow, _⟩ <;> omega
  have parts := (holds_append _ _ _ _).mp held
  rw [headerLength] at parts
  have read := on_read_holds parts.1 (headerLength previous skip)
  -- The header lands first, with the links of the copy.
  have newHeader := relink_header segment previous skip (linkTo root kept kept.length)
    (linkTo root kept (kept.length + 1 - lowBit (kept.length + 1)))
  have write := bears store (root + extent kept)
    (segment.header (linkTo root kept kept.length) (linkTo root kept (kept.length + 1 - lowBit (kept.length + 1))))
    ready above (by rw [headerLength]; omega)
  generalize middleEq : store.update .database (.write (root + extent kept)
    (segment.header (linkTo root kept kept.length)
      (linkTo root kept (kept.length + 1 - lowBit (kept.length + 1))))) = middle at write
  have walSame : middle.wal = store.wal := by rw [← middleEq]; rfl
  have later : Holds (middle.content .database) (offset + segment.headerSize)
      (frames segment.first segment.batches) := by
    rw [← middleEq, content_update_same]
    refine parts.2.write _ _ ?_
    rw [frames_length, headerLength]
    omega
  have bounded := segment.bounded
  have counted := segment.length_pos
  obtain ⟨after, runs, walAfter, database⟩ := copy_frames bears write.safe_after later rfl
    (Nat.le_of_eq body'.symm) (show low ≤ root + extent kept + segment.headerSize by omega) (by omega) (by omega)
    bounded
  rw [Nat.mod_eq_of_lt (show segment.first < 18446744073709551616 by omega)] at runs
  refine ⟨after, ⟨root + extent kept + segment.headerSize + framesSize segment.batches, root + extent kept,
    kept.length + 1, markLevels copy.offsets (linkLevel (kept.length + 1)) (root + extent kept)⟩, ?_, ?_,
    walAfter.trans walSame, ?_⟩
  · unfold copySegment
    simp only [header, body, first, last, copying.destination, copying.previous, copying.count]
    rw [levels_skip copying.levels few]
    refine runs_bind ((reads_read_exact _ _ _).runs ready read) ?_
    rw [newHeader]
    refine runs_bind write (runs_bind runs ?_)
    simp only
    rw [Io.require, if_pos (prev_last segment)]
    exact runs_bind (runs_pure runs.safe_after ()) (runs_pure runs.safe_after _)
  · exact
      { destination := by
          rw [extent_append, extent_cons, extent_nil, size, body']
          simp only
          omega
        previous := by
          rw [List.length_append, List.length_singleton, link_succ, List.take_left]
        count := by rw [List.length_append, List.length_singleton]
        levels := levels_mark copying.levels segment few }
  · rw [database, ← middleEq, content_update_same]
    have joined := write_write (store.content .database) (root + extent kept)
      (segment.header (linkTo root kept kept.length)
        (linkTo root kept (kept.length + 1 - lowBit (kept.length + 1)))) (frames segment.first segment.batches)
      (by
        intro none
        have length := headerLength (linkTo root kept kept.length)
          (linkTo root kept (kept.length + 1 - lowBit (kept.length + 1)))
        rw [none] at length
        simp at length
        omega)
    rw [headerLength] at joined
    exact joined

/-- Which segments a copy leaves out. -/
def dropped (filter : Bool) (cutoff : Nat) (segment : Segment) : Bool := filter && expires cutoff segment

def copied (filter : Bool) (cutoff : Nat) (segments : List Segment) : List Segment :=
  segments.filter fun segment => !dropped filter cutoff segment

theorem copied_none (cutoff : Nat) (segments : List Segment) : copied false cutoff segments = segments := by
  simp [copied, dropped]

theorem copied_kept (cutoff : Nat) (content : Content) :
    copied true cutoff content.segments = content.kept cutoff := by
  simp [copied, dropped, Content.kept]

theorem reads_copyExpires (filter : Bool) (offset : Nat) (info : SegmentInfo) (cutoff : Nat) :
    Reads (copyExpires filter offset info cutoff) := reads_ite (reads_segmentExpires _ _ _) (reads_pure _)

theorem copy_expires (filter : Bool) {cutoff offset : Nat} {segment : Segment} {info : SegmentInfo}
    (expiry : on (segmentExpires offset info cutoff) store = (.ok (expires cutoff segment), store)) :
    on (copyExpires filter offset info cutoff) store = (.ok (dropped filter cutoff segment), store) := by
  cases filter with
  | true =>
      rw [copyExpires, if_pos rfl, expiry]
      simp [dropped]
  | false => simp [copyExpires, dropped]

-- What is written apart from a chain leaves it alone.
theorem chained_write {root offset : Nat} {segments : List Segment} {bytes : Bytes} {after : Store}
    (chained : Chained store root limit segments)
    (apart : root + extent segments ≤ offset ∨ offset + bytes.length ≤ root)
    (database : after.content .database = writeAt (store.content .database) offset bytes) :
    Chained after root limit segments := by
  refine ⟨?_, chained.above, chained.inside, chained.capacity⟩
  rw [database]
  refine chained.held.write _ _ ?_
  rw [chain_length]
  exact apart

theorem copy_loop {root target cutoff fuel : Nat} {filter : Bool} {done rest kept : List Segment} {copy : Copy}
    (bears : Bears safe low high) (ready : safe store) (chained : Chained store root limit (done ++ rest))
    (whole : limit = root + extent (done ++ rest)) (enough : extent rest ≤ fuel)
    (copying : Copying target kept copy) (few : kept.length ≤ done.length) (above : low ≤ target)
    (below : target + extent kept + extent (copied filter cutoff rest) ≤ high)
    (apart : limit ≤ target ∨ target + extent kept + extent (copied filter cutoff rest) ≤ root) :
    ∃ after copy', Runs safe (copyLoop limit filter cutoff fuel (root + extent done) copy) store copy' after ∧
      Copying target (kept ++ copied filter cutoff rest) copy' ∧ after.wal = store.wal ∧
      after.content .database = writeAt (store.content .database) (target + extent kept)
        (chain target kept (copied filter cutoff rest)) := by
  induction rest generalizing store done kept copy fuel with
  | nil =>
      rw [List.append_nil] at whole
      refine ⟨store, copy, ?_, by simpa [copied] using copying, rfl, by simp [copied]⟩
      cases fuel with
      | zero => exact runs_pure ready _
      | succ fuel =>
          rw [copyLoop, if_neg (by omega)]
          exact runs_pure ready _
  | cons segment rest ih =>
      have least := segment.size_ge
      have count := chained.count_lt
      have joined : done ++ segment :: rest = (done ++ [segment]) ++ rest := by simp
      have sized : extent (done ++ segment :: rest) = extent done + (segment.size + extent rest) := by simp
      have shorter : kept.length ≤ (done ++ [segment]).length := by
        rw [List.length_append]
        omega
      rw [List.length_append, List.length_cons] at count
      rw [extent_cons] at enough
      obtain ⟨fuel, rfl⟩ : ∃ k, fuel = k + 1 := ⟨fuel - 1, by omega⟩
      have expiry := copy_expires filter (chained_expires chained cutoff)
      have place : root + extent done + segment.headerSize + segment.body = root + extent (done ++ [segment]) := by
        simp only [extent_append, extent_cons, extent_nil, Segment.size]
        omega
      rw [copyLoop, if_pos (by omega)]
      cases gone : dropped filter cutoff segment with
      | true =>
          have same : copied filter cutoff (segment :: rest) = copied filter cutoff rest := by
            simp [copied, gone]
          rw [same] at below apart ⊢
          obtain ⟨after, copy', runs, copying', wal, database⟩ := ih ready (by rw [← joined]; exact chained)
            (by rw [← joined]; exact whole) (show extent rest ≤ fuel by omega) copying shorter below apart
          refine ⟨after, copy', ?_, copying', wal, database⟩
          refine runs_bind ((reads_readSegment _ _ _).runs ready chained.read)
            (runs_bind ((reads_copyExpires _ _ _ _).runs ready expiry) ?_)
          rw [gone, copyUnless, if_pos rfl]
          rw [← place] at runs
          exact runs_bind (runs_pure ready copy) runs
      | false =>
          have split : copied filter cutoff (segment :: rest) = segment :: copied filter cutoff rest := by
            simp [copied, gone]
          rw [split, extent_cons] at below apart
          have held := chained.segment_held
          obtain ⟨middle, copy₁, run₁, copying₁, wal₁, database₁⟩ := copy_segment bears ready held
            (info_at_header root (done ++ segment :: rest) done.length segment) rfl rfl rfl copying (by omega)
            (by omega) (by omega) (by omega)
          have chained₁ : Chained middle root limit (done ++ segment :: rest) :=
            chained_write chained (by rw [copyImage, Segment.image_length]; omega) database₁
          have grown : extent (kept ++ [segment]) = extent kept + segment.size := by simp
          obtain ⟨after, copy', runs, copying', wal, database⟩ := ih run₁.safe_after
            (by rw [← joined]; exact chained₁) (by rw [← joined]; exact whole) (show extent rest ≤ fuel by omega)
            copying₁ (by simp only [List.length_append, List.length_singleton]; omega) (by omega) (by omega)
          refine ⟨after, copy', ?_, by rw [split]; simpa using copying', wal.trans wal₁, ?_⟩
          · refine runs_bind ((reads_readSegment _ _ _).runs ready chained.read)
              (runs_bind ((reads_copyExpires _ _ _ _).runs ready expiry) ?_)
            rw [gone, copyUnless, if_neg (by simp)]
            rw [← place] at runs
            exact runs_bind run₁ runs
          · have length : (copyImage target kept segment).length = segment.size := by
              rw [copyImage, Segment.image_length]
            have together := write_write (store.content .database) (target + extent kept)
              (copyImage target kept segment) (chain target (kept ++ [segment]) (copied filter cutoff rest))
              (by intro none; rw [none] at length; simp at length; omega)
            have shift : target + extent kept + segment.size = target + extent (kept ++ [segment]) := by
              rw [grown]
              omega
            rw [length, shift] at together
            rw [database, database₁, together, split, chain]
            rfl

/-- A copy of a chain behind it or in front of it. -/
theorem copy_segments {root target cutoff : Nat} {filter : Bool} {segments : List Segment}
    (bears : Bears safe low high) (syncs : Syncs safe) (ready : safe store) (chained : Chained store root limit segments)
    (whole : limit = root + extent segments) (above : low ≤ target)
    (below : target + extent (copied filter cutoff segments) ≤ high)
    (apart : limit ≤ target ∨ target + extent (copied filter cutoff segments) ≤ root) :
    ∃ after, Runs safe (copySegments root limit target filter cutoff) store
        (target + extent (copied filter cutoff segments),
          linkTo target (copied filter cutoff segments) (copied filter cutoff segments).length) after ∧
      (Synced store → Synced after) ∧ after.content .wal = store.content .wal ∧
      after.content .database = writeAt (store.content .database) target
        (chain target [] (copied filter cutoff segments)) := by
  have chained' : Chained store root limit ([] ++ segments) := chained
  obtain ⟨after, copy, runs, copying, wal, database⟩ := copy_loop bears ready chained' whole
    (show extent segments ≤ limit - root by omega) (copying_start target) (Nat.le_refl _) above
    (by simpa using below) (by simpa using apart)
  rw [List.nil_append] at copying
  have sync := syncs.runs .database runs.safe_after
  have same : after.content .wal = store.content .wal := by
    rw [Store.content, Store.disk, Store.disk?, wal]
    rfl
  refine ⟨after.sync .database, ?_, fun synced => ⟨rfl, ?_⟩, by rw [content_sync, same], ?_⟩
  · unfold copySegments
    simp only [extent_nil, Nat.add_zero] at runs
    rw [← copying.destination, ← copying.previous]
    exact runs_bind runs (runs_bind sync (runs_pure sync.safe_after _))
  · rw [content_sync, same, ← synced.2]
    exact wal
  · rw [content_sync, database]
    simp

end Copying

end Timelite.Relocation
