import Timelite.Admitting
import Timelite.Locating

/-!
A copy of any chain that the check of open accepts and whose bodies are tiled:
the source keeps every byte, and the copy is the chain of the kept segments at
its new place.
-/
namespace Timelite.Moving
open ByteFile Program Durable Codec Backend BackendLaws Layout Links HeaderWalk SegmentLaws Contents Crashes Relocation Reader
  Retention BatchApi Opaque Walking Lifting Touring Admitting

section Places
variable {d d' : Bytes} {root target limit offset cutoff : Nat} {filter : Bool} {done rest kept : List Segment}

/-- The segments `rest` of a chain behind `done`, each with its offset. -/
def placed (root : Nat) : (done rest : List Segment) → List (Nat × SegmentInfo)
  | _, [] => []
  | done, segment :: rest =>
      (root + extent done, segment.info (linkTo root done done.length)
        (linkTo root done (done.length + 1 - lowBit (done.length + 1)))) :: placed root (done ++ [segment]) rest

theorem segments_placed (chained : Chained (image d) root limit (done ++ rest)) :
    segmentsFrom d limit rest.length (root + extent done) = placed root done rest := by
  induction rest generalizing done with
  | nil => rfl
  | cons segment rest ih =>
      have read := chained.read
      rw [info_at_done] at read
      have found : headerIn d (root + extent done) limit = .ok _ := congrArg Prod.fst read
      have joined : done ++ segment :: rest = (done ++ [segment]) ++ rest := by simp
      have place : root + extent done + segment.headerSize + segment.body = root + extent (done ++ [segment]) := by
        simp only [extent_append, extent_cons, extent_nil, Segment.size]
        omega
      rw [List.length_cons, segments_cons found, placed]
      exact congrArg _ ((congrArg _ place).trans (ih (joined ▸ chained)))

/-- Every record of the segment is older than the cutoff, as far as its header tells. -/
def expired (d : Bytes) (cutoff : Nat) (place : Nat × SegmentInfo) : Bool :=
  if place.2.headerSize = 64 then decide (place.2.maximum < cutoff)
  else (bodyTimes d place.1 place.2).all fun time => decide (time < cutoff)

/-- The segments that a copy keeps. -/
def keeps (d : Bytes) (filter : Bool) (cutoff : Nat) (places : List (Nat × SegmentInfo)) : List (Nat × SegmentInfo) :=
  places.filter fun place => !(filter && expired d cutoff place)

theorem expired_held {segment : Segment} (held : Holds d (offset + segment.headerSize) (frames segment.first segment.batches))
    (previous skip : Nat) : expired d cutoff (offset, segment.info previous skip) = expires cutoff segment := by
  unfold expired expires
  simp only [body_times held]
  have size : (segment.info previous skip).headerSize = segment.headerSize := rfl
  rw [size]
  cases wide : segment.wide with
  | true => exact if_pos (segment.header_size_wide.mpr wide)
  | false => exact if_neg fun same => absurd (segment.header_size_wide.mp same) (by rw [wide]; simp)

/-- A copy of a segment: up to its links the header is the same bytes, and so are the frames. -/
structure Copied (d d' : Bytes) (old new : Nat × SegmentInfo) : Prop where
  headerSize : new.2.headerSize = old.2.headerSize
  header : readAt d' new.1 (min old.2.headerSize 44) = readAt d old.1 (min old.2.headerSize 44)
  first : new.2.first = old.2.first
  last : new.2.last = old.2.last
  body : new.2.body = old.2.body
  minimum : new.2.minimum = old.2.minimum
  maximum : new.2.maximum = old.2.maximum
  ordered : new.2.ordered = old.2.ordered
  frames : readAt d' (new.1 + old.2.headerSize) old.2.body = readAt d (old.1 + old.2.headerSize) old.2.body

-- What comes before the links does not depend on them.
theorem header_front (segment : Segment) (previous skip previous' skip' : Nat) :
    (segment.header previous skip).take (min segment.headerSize 44) =
      (segment.header previous' skip').take (min segment.headerSize 44) := by
  rcases segment.header_size_cases with ⟨size, wide⟩ | ⟨size, narrow⟩
  · rw [size, Segment.header, Segment.header, if_pos wide, if_pos wide]
    exact (segment_front _ _ _ _ _ _ _ _).trans (segment_front _ _ _ _ _ _ _ _).symm
  · rw [Segment.header, Segment.header, narrow]
    rfl

theorem copied_held {segment : Segment} {previous skip previous' skip' offset' : Nat}
    (held : Holds d offset (segment.image previous skip)) (held' : Holds d' offset' (segment.image previous' skip')) :
    Copied d d' (offset, segment.info previous skip) (offset', segment.info previous' skip') := by
  rw [Segment.image, holds_append, Segment.header_length] at held held'
  refine ⟨rfl, ?_, rfl, rfl, rfl, rfl, rfl, rfl, ?_⟩
  · have front : ∀ {d : Bytes} {offset previous skip : Nat}, Holds d offset (segment.header previous skip) →
        readAt d offset (min segment.headerSize 44) = (segment.header previous skip).take (min segment.headerSize 44) := by
      intro d offset previous skip held
      have length := segment.header_length previous skip
      rw [← List.take_append_drop (min segment.headerSize 44) (segment.header previous skip), holds_append] at held
      have size : ((segment.header previous skip).take (min segment.headerSize 44)).length = min segment.headerSize 44 := by
        rw [List.length_take, length]
        omega
      have read := held.1.read
      rwa [size] at read
    exact (front held'.1).trans ((header_front _ _ _ _ _).trans (front held.1).symm)
  · have length : segment.body = (Layout.frames segment.first segment.batches).length := by rw [frames_length]; rfl
    change readAt d' (offset' + segment.headerSize) segment.body = readAt d (offset + segment.headerSize) segment.body
    rw [length]
    exact held'.2.trans held.2.symm

/-- The kept segments and their copies. -/
theorem kept_copied {limit' : Nat} (chained : Chained (image d) root limit (done ++ rest))
    (copied_ : Chained (image d') target limit' (kept ++ copied filter cutoff rest)) :
    List.Forall₂ (Copied d d') (keeps d filter cutoff (placed root done rest))
      (placed target kept (copied filter cutoff rest)) := by
  induction rest generalizing done kept with
  | nil => exact .nil
  | cons segment rest ih =>
      have joined : done ++ segment :: rest = (done ++ [segment]) ++ rest := by simp
      have gone : expired d cutoff (root + extent done, segment.info (linkTo root done done.length)
          (linkTo root done (done.length + 1 - lowBit (done.length + 1)))) = expires cutoff segment :=
        expired_held chained.frames_held _ _
      rw [placed, keeps, List.filter_cons, gone]
      rw [copied, List.filter_cons, dropped] at copied_ ⊢
      split
      · rename_i stays
        rw [if_pos stays] at copied_
        rw [placed]
        have shift : kept ++ segment :: List.filter (fun segment => !dropped filter cutoff segment) rest =
          (kept ++ [segment]) ++ copied filter cutoff rest := by simp [copied]
        exact .cons (copied_held chained.segment_held copied_.segment_held) (ih (joined ▸ chained) (shift ▸ copied_))
      · rename_i leaves
        rw [if_neg leaves] at copied_
        exact ih (joined ▸ chained) copied_

end Places

section Writes
variable {store after : Store} {low high : Nat}

/-- Nothing outside [low, high) of the database has changed, nor has the WAL. -/
structure Untouched (store : Store) (low high : Nat) (after : Store) : Prop where
  long : low < high → low ≤ (after.content .database).length
  outside : ∀ i, i < low ∨ high ≤ i → (after.content .database)[i]? = (store.content .database)[i]?
  wal : after.content .wal = store.content .wal

theorem untouched_write {offset : Nat} {bytes : Bytes} (kept : Untouched store low high after) (above : low ≤ offset)
    (below : offset + bytes.length ≤ high) : Untouched store low high (after.update .database (.write offset bytes)) := by
  have wal : (after.update .database (.write offset bytes)).content .wal = after.content .wal := rfl
  have database := content_update_same after .database (.write offset bytes)
  change _ = writeAt (after.content .database) offset bytes at database
  by_cases none : bytes = []
  · subst none
    rw [write_nil] at database
    exact ⟨by rw [database]; exact kept.long, by rw [database]; exact kept.outside, wal.trans kept.wal⟩
  have some := List.length_pos_iff.mpr none
  have grows := write_grows (after.content .database) offset bytes
  have long := kept.long (by omega)
  refine ⟨fun _ => by rw [database]; omega, fun i far => ?_, wal.trans kept.wal⟩
  rw [database, ← kept.outside i far]
  by_cases old : i < (after.content .database).length
  · exact write_get_outside _ _ _ _ old (by omega)
  · have length := write_length (after.content .database) offset bytes none
    rw [List.getElem?_eq_none (by omega), List.getElem?_eq_none (by omega)]

theorem bears_untouched (store : Store) (low high : Nat) : Bears (Untouched store low high) low high := by
  intro after offset bytes kept above below
  refine runs_write _ _ _ kept (untouched_write kept above below) fun count _ => untouched_write kept above ?_
  rw [List.length_take]
  omega

theorem syncs_untouched (store : Store) (low high : Nat) : Syncs (Untouched store low high) := by
  intro after file kept
  exact ⟨by rw [content_sync]; exact kept.long, by rw [content_sync]; exact kept.outside, by rw [content_sync]; exact kept.wal⟩

end Writes

section Relocating
variable {store after : Store} {state : RetentionState} {generation dataEnd last tail lastTime destination cutoff newEnd newTail : Nat}
  {hasTime filter : Bool} {checked : Checked}

/-- The bytes that segments take. -/
def bytesOf (places : List (Nat × SegmentInfo)) : Nat := (places.map fun place => place.2.headerSize + place.2.body).sum

/-- What a copy of the segments `kept` of the extent [root, dataEnd) leaves. -/
structure Relocated (store : Store) (root dataEnd destination last cutoff : Nat) (filter : Bool) (kept : List (Nat × SegmentInfo))
    (newEnd newTail : Nat) (after : Store) : Prop where
  source : Agree (store.content .database) (after.content .database) root dataEnd
  untouched : Untouched store destination newEnd after
  copied : List.Forall₂ (Copied (store.content .database) (after.content .database)) kept
    (segmentsFrom (after.content .database) newEnd kept.length destination)
  accepted : ∀ revision phase lastTime, ∃ checked, on (checkSegments kept.length newEnd last newTail lastTime true
    ⟨revision, destination, phase, true⟩) after = (.ok checked, after)
  sized : newEnd = destination + bytesOf kept
  surveyed : filter = true → ∃ live, on (surveySegments dataEnd cutoff (dataEnd - root) root ⟨0, 0, 0⟩) store =
    (.ok ⟨newEnd - destination, kept.length, live⟩, store)
  whole : filter = false → newEnd - destination = dataEnd - root
  tail : newTail = ((segmentsFrom (after.content .database) newEnd kept.length destination).getLast?.map (·.1)).getD 0

theorem placed_last (root : Nat) (done rest : List Segment) (some : rest ≠ []) :
    ((placed root done rest).getLast?.map (·.1)).getD 0 = linkTo root (done ++ rest) (done ++ rest).length := by
  induction rest generalizing done with
  | nil => exact absurd rfl some
  | cons segment rest ih =>
      have joined : done ++ segment :: rest = (done ++ [segment]) ++ rest := by simp
      cases rest with
      | nil =>
          rw [List.length_append, List.length_singleton, link_succ, List.take_left]
          rfl
      | cons next later =>
          rw [placed, placed, List.getLast?_cons_cons, joined]
          exact ih (done ++ [segment]) (List.cons_ne_nil _ _)

theorem kept_placed {d : Bytes} {root limit : Nat} {done rest : List Segment}
    (chained : Chained (image d) root limit (done ++ rest)) :
    (keeps d filter cutoff (placed root done rest)).length = (copied filter cutoff rest).length ∧
      bytesOf (keeps d filter cutoff (placed root done rest)) = extent (copied filter cutoff rest) := by
  induction rest generalizing done with
  | nil => exact ⟨rfl, rfl⟩
  | cons segment rest ih =>
      have joined : done ++ segment :: rest = (done ++ [segment]) ++ rest := by simp
      have gone : expired d cutoff (root + extent done, segment.info (linkTo root done done.length)
          (linkTo root done (done.length + 1 - lowBit (done.length + 1)))) = expires cutoff segment :=
        expired_held chained.frames_held _ _
      obtain ⟨count, bytes⟩ := ih (joined ▸ chained)
      rw [placed, keeps, List.filter_cons, gone, copied, List.filter_cons, dropped]
      split
      · rw [List.length_cons, List.length_cons, bytesOf, List.map_cons, List.sum_cons, extent_cons]
        exact ⟨congrArg (· + 1) count, congrArg _ bytes⟩
      · exact ⟨count, bytes⟩

/-- The chain behind a passed check. -/
theorem checked_chain (low : 160 ≤ state.root) (inside : state.root ≤ dataEnd) (capacity : dataEnd ≤ databaseCapacity)
    (accepted : (on (checkSegments generation dataEnd last tail lastTime hasTime state) store).1 = .ok checked)
    (tiled : ∀ place ∈ segmentsFrom (store.content .database) dataEnd generation state.root,
      Tiled (store.content .database) place.1 place.2) :
    ∃ segments, Chained (image (store.content .database)) state.root dataEnd segments ∧ segments.length = generation ∧
      dataEnd = state.root + extent segments ∧ Sequenced state.enabled 0 segments ∧ lastSequence segments ≤ last := by
  obtain ⟨walk, ran, ends, covered, _⟩ := checked_walk accepted
  obtain ⟨infos, count, passed⟩ := passed_of_walk ran
  rw [← count] at tiled
  obtain ⟨segments, length, held, walked, sequenced⟩ :=
    lift_chain passed (walked_start state.root) rfl low inside capacity (tiling_of_tiled passed tiled)
  rw [extent_nil, Nat.add_zero] at held
  rw [List.nil_append] at walked
  rw [walked.sequence] at covered
  rw [walked.offset] at ends
  exact ⟨segments, ⟨held, low, Nat.le_of_eq ends, capacity⟩, length.trans count, ends.symm, sequenced, covered⟩

/-- What the written chain makes of the file. -/
theorem relocated_chain {root : Nat} {segments : List Segment} (chained : Chained store root dataEnd segments)
    (whole : dataEnd = root + extent segments) (sequenced : Sequenced state.enabled 0 segments)
    (covered : lastSequence segments ≤ last) (above : 160 ≤ destination)
    (room : destination + extent (copied filter cutoff segments) ≤ databaseCapacity)
    (apart : dataEnd ≤ destination ∨ destination + extent (copied filter cutoff segments) ≤ root)
    (untouched : Untouched store destination (destination + extent (copied filter cutoff segments)) after)
    (held : Holds (after.content .database) destination (chain destination [] (copied filter cutoff segments))) :
    Relocated store root dataEnd destination last cutoff filter
      (keeps (store.content .database) filter cutoff (placed root [] segments))
      (destination + extent (copied filter cutoff segments))
      (linkTo destination (copied filter cutoff segments) (copied filter cutoff segments).length) after := by
  have source : Chained (image (store.content .database)) root dataEnd ([] ++ segments) :=
    ⟨chained.held, chained.above, chained.inside, chained.capacity⟩
  obtain ⟨count, bytes⟩ := @kept_placed cutoff filter _ root dataEnd [] segments source
  have moved : Chained (image (after.content .database)) destination (destination + extent (copied filter cutoff segments))
      ([] ++ copied filter cutoff segments) := ⟨held, above, Nat.le_refl _, room⟩
  have places := segments_placed moved
  rw [extent_nil, Nat.add_zero] at places
  refine ⟨fun i above below => (untouched.outside i (by omega)).symm, untouched, ?_, fun revision phase lastTime => ?_, by rw [bytes],
    fun on => ?_, fun off => ?_, ?_⟩
  · rw [count, places]
    exact kept_copied source moved
  · rw [count]
    exact ⟨_, @check_segments after (destination + extent (copied filter cutoff segments)) (copied filter cutoff segments)
      ⟨revision, destination, phase, true⟩ _ _ _ _ ⟨held, above, Nat.le_refl _, room⟩ rfl
      ⟨increasing_filter _ sequenced.1, fun off => by cases off⟩ (Nat.le_trans (last_sequence_filter _ sequenced.1) covered)
      (.inl rfl) (fun _ => rfl) fun _ _ _ off => by cases off⟩
  · subst on
    have ran := @survey_segments store dataEnd root cutoff (dataEnd - root) [] segments ⟨0, 0, 0⟩ chained whole (by omega)
    rw [extent_nil, Nat.add_zero] at ran
    have same : copied true cutoff segments = segments.filter fun segment => !expires cutoff segment := by
      simp [copied, dropped]
    rw [count, Nat.add_sub_cancel_left, same]
    simp only [Nat.zero_add] at ran
    exact ⟨_, ran⟩
  · subst off
    rw [copied_none]
    omega
  · rw [count, places]
    by_cases none : copied filter cutoff segments = []
    · rw [none]
      rfl
    · exact (placed_last destination [] _ none).symm

/-- A copy behind its source, or in front of it, writes nowhere else at any time. When it
is done, the copy is the chain of the kept segments. -/
theorem copy_relocates (low : 160 ≤ state.root) (inside : state.root ≤ dataEnd) (capacity : dataEnd ≤ databaseCapacity)
    (accepted : (on (checkSegments generation dataEnd last tail lastTime hasTime state) store).1 = .ok checked)
    (tiled : ∀ place ∈ segmentsFrom (store.content .database) dataEnd generation state.root,
      Tiled (store.content .database) place.1 place.2)
    (apart : destination = dataEnd ∧ bytesOf (keeps (store.content .database) filter cutoff
        (segmentsFrom (store.content .database) dataEnd generation state.root)) ≤ databaseCapacity - dataEnd ∨
      destination = 160 ∧ dataEnd - state.root ≤ state.root - 160) :
    ∃ kept, kept = keeps (store.content .database) filter cutoff
        (segmentsFrom (store.content .database) dataEnd generation state.root) ∧
      (∀ outcome middle, Exec device (copySegments state.root dataEnd destination filter cutoff) store outcome middle →
        Untouched store destination (destination + bytesOf kept) middle) ∧
      ∀ newEnd newTail after, Exec device (copySegments state.root dataEnd destination filter cutoff) store
        (some (.ok (newEnd, newTail))) after →
          Relocated store state.root dataEnd destination last cutoff filter kept newEnd newTail after := by
  obtain ⟨segments, chained, rfl, whole, sequenced, covered⟩ := checked_chain low inside capacity accepted tiled
  have places := @segments_placed (store.content .database) state.root dataEnd [] segments chained
  rw [extent_nil, Nat.add_zero] at places
  obtain ⟨_, bytes⟩ := @kept_placed cutoff filter (store.content .database) state.root dataEnd [] segments chained
  rw [places, bytes] at apart
  have source : Chained store state.root dataEnd segments := ⟨chained.held, low, chained.inside, capacity⟩
  have fewer := extent_filter (fun segment => !dropped filter cutoff segment) segments
  change extent (copied filter cutoff segments) ≤ extent segments at fewer
  have ready : Untouched store destination (destination + extent (copied filter cutoff segments)) store := by
    refine ⟨fun some => ?_, fun _ _ => rfl, rfl⟩
    have long := Holds.length_le chained.held (by
      intro none
      have length := chain_length state.root [] segments
      rw [none] at length
      simp at length
      omega)
    rw [chain_length] at long
    change _ ≤ (store.content .database).length at long
    omega
  obtain ⟨after, runs, _, _, database⟩ := copy_segments (bears_untouched store destination
    (destination + extent (copied filter cutoff segments))) (syncs_untouched _ _ _) ready source whole (Nat.le_refl _)
    (Nat.le_refl _) (by omega)
  refine ⟨_, rfl, ?_, ?_⟩
  · intro outcome middle execution
    rw [places, bytes]
    exact (Does.sound runs execution).1
  · intro newEnd newTail last' execution
    rcases (Does.sound runs execution).2 _ rfl with ⟨same, rfl⟩ | ⟨code, failed⟩
    · cases same
      rw [places]
      refine relocated_chain source whole sequenced covered (by omega) (by omega) (by omega) runs.safe_after ?_
      rw [database]
      exact holds_write _ _ _
    · cases failed

def laterBatch : Batch := ⟨[⟨7, 9, 4⟩], by decide, by decide⟩

/-- A narrow segment before a wide one with a later record. -/
def agedChain : List Segment :=
  Locating.mixedChain.take 1 ++
    [⟨.span, 2, 9, 9, [laterBatch], Nat.two_pos, by decide, by decide, by decide, by decide, by decide, fun legacy => by cases legacy⟩]

def agedBytes : Bytes := List.replicate 160 0 ++ chain 160 [] agedChain

-- The cutoff drops the first segment and keeps the second.
theorem copy_relocates_aged :
    (keeps agedBytes true 6 (segmentsFrom agedBytes 424 2 160)).map (·.1) = [276] ∧
    ∃ kept, kept = keeps agedBytes true 6 (segmentsFrom agedBytes 424 2 160) ∧
      (∀ outcome middle, Exec device (copySegments 160 424 424 true 6) (image agedBytes) outcome middle →
        Untouched (image agedBytes) 424 (424 + bytesOf kept) middle) ∧
      ∀ newEnd newTail after, Exec device (copySegments 160 424 424 true 6) (image agedBytes)
        (some (.ok (newEnd, newTail))) after → Relocated (image agedBytes) 160 424 424 2 6 true kept newEnd newTail after := by
  have accepted : (on (checkSegments 2 424 2 276 9 true ⟨2, 160, 0, true⟩) (image agedBytes)).1 = .ok ⟨276, 9, 2, 2⟩ := by
    decide +kernel
  have tiled : ∀ place ∈ segmentsFrom ((image agedBytes).content .database) 424 2 160,
      Tiled ((image agedBytes).content .database) place.1 place.2 := by
    decide +kernel
  have room : bytesOf (keeps ((image agedBytes).content .database) true 6
      (segmentsFrom ((image agedBytes).content .database) 424 2 160)) ≤ databaseCapacity - 424 := by
    decide +kernel
  refine ⟨by decide +kernel, ?_⟩
  exact @copy_relocates (image agedBytes) ⟨2, 160, 0, true⟩ 2 424 2 276 9 424 6 true true ⟨276, 9, 2, 2⟩ (by decide) (by decide)
    (by decide) accepted tiled (.inl ⟨rfl, room⟩)

end Relocating

end Timelite.Moving
