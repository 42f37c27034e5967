import Timelite.Opaque

/-!
When open refuses a pair and yet changes it. Only the copying of a retained set
to its place both writes and validates; it stops at the first damaged frame.
-/
namespace Timelite.Refusing
open ByteFile Program Durable Codec CodecLaws Backend BackendLaws Layout FrameLaws HeaderWalk SlotLaws Images Databases
  Reader Retention BatchApi System Undisturbed Opaque

section Copying
variable {d : Bytes} {store : Store} {limit fuel position destination sequence offset : Nat} {segment : SegmentInfo}
  {copy : Copy}

/-- What the copy of a segment writes before it stops. -/
def segmentCopy (d : Bytes) (offset : Nat) (segment : SegmentInfo) (copy : Copy) : Bytes :=
  relink (readAt d offset segment.headerSize) segment.headerSize copy.previous
      (copy.offsets.getD (linkLevel (copy.count + 1)) 0) ++ runBytes (bodyRun d offset segment).1

def nextCopy (copy : Copy) (segment : SegmentInfo) : Copy where
  destination := copy.destination + segment.headerSize + segment.body
  previous := copy.destination
  count := copy.count + 1
  offsets := markLevels copy.offsets (linkLevel (copy.count + 1)) copy.destination

/-- What the copy of a chain writes before it stops, and whether it goes through. -/
def chainCopy (d : Bytes) (limit : Nat) : (fuel offset : Nat) → Copy → Bytes × Bool
  | 0, _, _ => ([], true)
  | fuel + 1, offset, copy =>
      if offset < limit then
        match headerIn d offset limit with
        | .error _ => ([], false)
        | .ok segment =>
            if Tiled d offset segment then
              let rest := chainCopy d limit fuel (offset + segment.headerSize + segment.body) (nextCopy copy segment)
              (segmentCopy d offset segment copy ++ rest.1, rest.2)
            else (segmentCopy d offset segment copy, false)
      else ([], true)

-- The region that is still to be copied.
theorem agree_write {bytes : Bytes} (same : Agree (store.content .database) d offset limit)
    (long : limit ≤ (store.content .database).length) (apart : destination + bytes.length ≤ offset) :
    Agree ((store.update .database (.write destination bytes)).content .database) d offset limit ∧
      limit ≤ ((store.update .database (.write destination bytes)).content .database).length := by
  rw [content_update_same]
  exact ⟨(write_agree_above _ destination bytes offset limit long apart).symm.trans same,
    Nat.le_trans long (write_grows _ _ _)⟩

theorem copy_frames_bytes (same : Agree (store.content .database) d position limit)
    (long : limit ≤ (store.content .database).length) (inside : position ≤ limit) (enough : limit - position ≤ fuel)
    (apart : destination + (limit - position) ≤ position) :
    ∃ after, on (copyFrames limit fuel position destination sequence) store =
        (match (frameRun d limit fuel position sequence).2 with
          | some last => .ok (destination + (runBytes (frameRun d limit fuel position sequence).1).length, last)
          | none => .error .invalidDatabase, after) ∧
      after.content .wal = store.content .wal ∧
      after.content .database =
        writeAt (store.content .database) destination (runBytes (frameRun d limit fuel position sequence).1) := by
  induction fuel generalizing store position destination sequence with
  | zero => exact ⟨store, rfl, rfl, (write_nil _ _).symm⟩
  | succ fuel ih =>
      by_cases more : position < limit
      · have read := @read_frame_in d position limit sequence store same
        rw [copyFrames, if_pos more]
        cases found : frameIn d position limit sequence with
        | error error =>
            rw [frame_run_error more found]
            rw [found] at read
            refine ⟨store, on_bind_error ?_, rfl, (write_nil _ _).symm⟩
            rw [complete, on_examine, read]
            rcases Grammar.read_frame_error found with rfl | ⟨rfl, _⟩ <;> rfl
        | ok frame =>
            obtain ⟨_, large, fits⟩ := frame_in found
            rw [found] at read
            obtain ⟨same', long'⟩ := @agree_write d store limit destination (position + frame.bytes.length) frame.bytes
              (same.mono (by omega) (Nat.le_refl _)) long (by omega)
            obtain ⟨after, ran, wal, database⟩ := @ih _ _ (destination + frame.bytes.length) (next64 sequence) same' long'
              (by omega) (by omega) (by omega)
            rw [frame_run_ok more found]
            refine ⟨after, ?_, wal, ?_⟩
            · rw [on_bind_ok (on_complete_ok read), on_bind_ok (on_write_exact _ _ _ _), ran]
              cases (frameRun d limit fuel (position + frame.bytes.length) (next64 sequence)).2 with
              | none => rfl
              | some last => simp only [runBytes, List.flatMap_cons, List.length_append, Nat.add_assoc]
            · rw [database, content_update_same]
              simp only [runBytes, List.flatMap_cons]
              exact write_write _ _ _ _ (List.length_pos_iff.mp (by omega))
      · rw [copyFrames, if_neg more, frame_run_end more]
        exact ⟨store, rfl, rfl, (write_nil _ _).symm⟩

theorem relink_length {header : Bytes} {headerSize previous skip : Nat} (size : headerSize = 32 ∨ headerSize = 64)
    (length : header.length = headerSize) : (relink header headerSize previous skip).length = headerSize := by
  unfold relink
  rcases size with rfl | rfl
  · exact length
  · rw [if_pos rfl, sealed_length]
    simp only [List.length_append, List.length_take, encode64_length, length]
    omega

-- The copy of a segment is not larger than the segment, and as large as a tiled one.
theorem segment_copy_length (found : headerIn d offset limit = .ok segment) :
    (segmentCopy d offset segment copy).length ≤ segment.headerSize + segment.body ∧
      (Tiled d offset segment → (segmentCopy d offset segment copy).length = segment.headerSize + segment.body) := by
  have header := header_in found
  have inside := header.inside
  have length : (readAt d offset segment.headerSize).length = segment.headerSize := by
    simp only [read_length]
    omega
  obtain ⟨most, whole⟩ := @frame_run_length d (offset + segment.headerSize + segment.body) segment.body
    (offset + segment.headerSize) segment.first (by omega) (by omega)
  rw [segmentCopy, List.length_append, relink_length header.size length, bodyRun]
  refine ⟨by omega, fun tiled => ?_⟩
  have some : (frameRun d (offset + segment.headerSize + segment.body) segment.body (offset + segment.headerSize)
      segment.first).2.isSome = true := by
    rw [Tiled, bodyRun] at tiled
    cases run : (frameRun d (offset + segment.headerSize + segment.body) segment.body (offset + segment.headerSize)
        segment.first).2 with
    | none =>
        rw [run] at tiled
        cases tiled
    | some last => rfl
  have := whole some
  omega

theorem copy_segment_bytes (same : Agree (store.content .database) d offset limit)
    (long : limit ≤ (store.content .database).length) (found : headerIn d offset limit = .ok segment)
    (apart : copy.destination + (segment.headerSize + segment.body) ≤ offset) :
    ∃ after, on (copySegment offset segment copy) store =
        (if Tiled d offset segment then .ok (nextCopy copy segment) else .error .invalidDatabase, after) ∧
      after.content .wal = store.content .wal ∧
      after.content .database = writeAt (store.content .database) copy.destination (segmentCopy d offset segment copy) := by
  have header := header_in found
  have fits := header.fits
  have some := header.size
  have read : on (readExact .database offset segment.headerSize) store = (.ok (readAt d offset segment.headerSize), store) := by
    have bytes := same.read offset segment.headerSize (Nat.le_refl _) (by omega)
    rw [on_read_exact, bytes, if_pos (by have := header.inside; simp only [read_length]; omega)]
  have length : (readAt d offset segment.headerSize).length = segment.headerSize := by
    have := header.inside
    simp only [read_length]
    omega
  generalize shape : relink (readAt d offset segment.headerSize) segment.headerSize copy.previous
    (copy.offsets.getD (linkLevel (copy.count + 1)) 0) = linked
  have width : linked.length = segment.headerSize := by
    rw [← shape]
    exact relink_length header.size length
  obtain ⟨same', long'⟩ := @agree_write d store limit copy.destination (offset + segment.headerSize) linked
    (same.mono (by omega) (Nat.le_refl _)) long (by omega)
  obtain ⟨after, ran, wal, database⟩ := @copy_frames_bytes d _ (offset + segment.headerSize + segment.body) segment.body
    (offset + segment.headerSize) (copy.destination + segment.headerSize) segment.first
    (same'.mono (Nat.le_refl _) fits) (Nat.le_trans fits long') (by omega) (by omega) (by omega)
  have bytes : (runBytes (bodyRun d offset segment).1) =
      runBytes (frameRun d (offset + segment.headerSize + segment.body) segment.body (offset + segment.headerSize)
        segment.first).1 := rfl
  refine ⟨after, ?_, wal, ?_⟩
  · have filled := (@frame_run_length d (offset + segment.headerSize + segment.body) segment.body
      (offset + segment.headerSize) segment.first (by omega) (by omega)).2
    unfold copySegment
    rw [on_bind_ok read]
    simp only [shape]
    rw [on_bind_ok (on_write_exact _ _ _ _)]
    cases run : (frameRun d (offset + segment.headerSize + segment.body) segment.body (offset + segment.headerSize)
        segment.first).2 with
    | none =>
        rw [run] at ran
        rw [on_bind_error ran, if_neg (by rw [Tiled, bodyRun, run]; simp)]
    | some last =>
        rw [run] at ran filled
        have place := filled rfl
        have tiled : Tiled d offset segment ↔ prev64 last = segment.last := by
          rw [Tiled, bodyRun, run]
          simp
        rw [on_bind_ok ran, on_require_bind]
        by_cases ends : prev64 last = segment.last
        · rw [if_pos ends, if_pos (tiled.mpr ends), on_pure, place, nextCopy]
          simp only [Prod.mk.injEq, Except.ok.injEq, Copy.mk.injEq, and_true]
          omega
        · rw [if_neg ends, if_neg (mt tiled.mp ends)]
  · rw [database, content_update_same, segmentCopy, shape, bytes]
    have joined := write_write (store.content .database) copy.destination linked
      (runBytes (frameRun d (offset + segment.headerSize + segment.body) segment.body (offset + segment.headerSize)
        segment.first).1) (List.length_pos_iff.mp (by omega))
    rw [width] at joined
    exact joined

theorem chain_copy_length (inside : offset ≤ limit) : (chainCopy d limit fuel offset copy).1.length ≤ limit - offset := by
  induction fuel generalizing offset copy with
  | zero => exact Nat.zero_le _
  | succ fuel ih =>
      rw [chainCopy]
      by_cases more : offset < limit
      · rw [if_pos more]
        cases found : headerIn d offset limit with
        | error error => exact Nat.zero_le _
        | ok segment =>
            have fits := (header_in found).fits
            have length := (@segment_copy_length d limit offset segment copy found).1
            have rest := @ih (offset + segment.headerSize + segment.body) (nextCopy copy segment) fits
            by_cases tiled : Tiled d offset segment
            · simp only [tiled, if_true, List.length_append]
              omega
            · simp only [tiled, if_false]
              omega
      · rw [if_neg more]
        exact Nat.zero_le _

/-- The whole copy, as far as it gets. -/
theorem copy_chain_bytes (same : Agree (store.content .database) d offset limit)
    (long : limit ≤ (store.content .database).length) (inside : offset ≤ limit) (enough : limit - offset ≤ fuel)
    (apart : copy.destination + (limit - offset) ≤ offset) :
    ∃ after copied, on (copyLoop limit false 0 fuel offset copy) store =
        (if (chainCopy d limit fuel offset copy).2 then .ok copied else .error .invalidDatabase, after) ∧
      after.content .wal = store.content .wal ∧
      after.content .database =
        writeAt (store.content .database) copy.destination (chainCopy d limit fuel offset copy).1 ∧
      ((chainCopy d limit fuel offset copy).2 = true →
        copied.destination = copy.destination + (chainCopy d limit fuel offset copy).1.length) := by
  induction fuel generalizing store offset copy with
  | zero => exact ⟨store, copy, rfl, rfl, (write_nil _ _).symm, fun _ => rfl⟩
  | succ fuel ih =>
      rw [chainCopy, copyLoop]
      by_cases more : offset < limit
      · have read := @read_header d offset limit store same
        rw [if_pos more, if_pos more]
        cases found : headerIn d offset limit with
        | error error =>
            rw [found] at read
            refine ⟨store, copy, ?_, rfl, (write_nil _ _).symm, fun through => by cases through⟩
            rw [on_bind_error read, header_error found]
            rfl
        | ok segment =>
            rw [found] at read
            have fits := (header_in found).fits
            have length := @segment_copy_length d limit offset segment copy found
            have some := (header_in found).size
            obtain ⟨middle, ran, wal, database⟩ := @copy_segment_bytes d store limit offset segment copy same long found
              (by omega)
            have kept : on (copyExpires false offset segment 0) store = (.ok false, store) := rfl
            by_cases tiled : Tiled d offset segment
            · rw [if_pos tiled] at ran
              have written := length.2 tiled
              obtain ⟨same', long'⟩ := @agree_write d store limit copy.destination
                (offset + segment.headerSize + segment.body) (segmentCopy d offset segment copy)
                (same.mono (by omega) (Nat.le_refl _)) long (by omega)
              rw [content_update_same] at same' long'
              change Agree (writeAt (store.content .database) copy.destination (segmentCopy d offset segment copy)) _ _ _ at same'
              change _ ≤ (writeAt (store.content .database) copy.destination (segmentCopy d offset segment copy)).length at long'
              rw [← database] at same' long'
              obtain ⟨after, copied, rest, wal', database', reached⟩ := @ih middle (offset + segment.headerSize + segment.body)
                (nextCopy copy segment) same' long' fits (by omega) (by simp only [nextCopy]; omega)
              simp only [tiled, if_true]
              refine ⟨after, copied, ?_, wal'.trans wal, ?_, fun through => ?_⟩
              · have copying : on (copyUnless false offset segment copy) store = (.ok (nextCopy copy segment), middle) := ran
                rw [on_bind_ok read, on_bind_ok kept, on_bind_ok copying, rest]
              · rw [database', database]
                have joined := write_write (store.content .database) copy.destination (segmentCopy d offset segment copy)
                  (chainCopy d limit fuel (offset + segment.headerSize + segment.body) (nextCopy copy segment)).1
                  (List.length_pos_iff.mp (by omega))
                rw [written, ← Nat.add_assoc] at joined
                exact joined
              · have reached' := reached through
                have place : (nextCopy copy segment).destination = copy.destination + segment.headerSize + segment.body := rfl
                rw [place] at reached'
                rw [List.length_append]
                omega
            · rw [if_neg tiled] at ran
              simp only [tiled, if_false]
              refine ⟨middle, copy, ?_, wal, database, fun through => by cases through⟩
              rw [on_bind_ok read, on_bind_ok kept]
              exact on_bind_error ran
      · rw [if_neg more, if_neg more]
        exact ⟨store, copy, rfl, rfl, (write_nil _ _).symm, fun _ => rfl⟩

end Copying

section Recovery
variable {store : Store} {v : Validated}

/-- The negative format errors. -/
def FormatError (error : Error) : Prop :=
  error = .invalidDatabase ∨ error = .unsupportedVersion ∨ error = .pairMismatch

/-- What the copy of phase 2 writes at 160 before it stops, and whether it goes through. -/
def copyBytes (d : Bytes) (m : Manifests) : Bytes × Bool :=
  chainCopy d m.dataEnd (m.dataEnd - m.state.root) m.state.root ⟨160, 0, 0, List.replicate 24 0⟩

/-- No pair that passes validation is about to copy a retained set with a
damaged body, unless what precedes the damage stands at its place already. -/
def FailsClosed (store : Store) : Prop :=
  ∀ v, (on validatePair store).1 = .ok v → v.manifests.state.phase = 2 →
    v.manifests.state.revision ≤ uint64Max - 2 →
    (copyBytes (store.content .database) v.manifests).2 = true ∨
      Holds (store.content .database) 160 (copyBytes (store.content .database) v.manifests).1

theorem write_same {file bytes : Bytes} {offset : Nat} (held : Holds file offset bytes)
    (inside : offset + bytes.length ≤ file.length) : writeAt file offset bytes = file := by
  by_cases none : bytes = []
  · rw [none, write_nil]
  have length := write_length file offset bytes none
  apply List.ext_getElem?
  intro i
  by_cases within : offset ≤ i ∧ i < offset + bytes.length
  · rw [write_get_inside file offset bytes i within.1 within.2]
    have here := (holds_iff file offset bytes).mp held (i - offset) (by omega)
    rw [← here]
    congr 1
    omega
  · by_cases old : i < file.length
    · exact write_get_outside file offset bytes i old (by omega)
    · rw [List.getElem?_eq_none (by omega), List.getElem?_eq_none (by omega)]

/-- The installed data up to `high` stands as before. -/
structure Above (high : Nat) (store after : Store) : Prop where
  wal : after.content .wal = store.content .wal
  data : Agree (store.content .database) (after.content .database) 160 high
  long : high ≤ (after.content .database).length

theorem Above.trans {high : Nat} {middle after : Store} (first : Above high store middle) (second : Above high middle after) :
    Above high store after :=
  ⟨second.wal.trans first.wal, first.data.trans second.data, second.long⟩

theorem publish_ok {state : RetentionState} (room : state.revision ≠ uint64Max) (count dataEnd last time tail root phase : Nat)
    {high : Nat} (long : high ≤ (store.content .database).length) :
    ∃ after, on (publishRetention state count dataEnd last time tail root phase) store =
      (.ok ⟨state.revision + 1, root, phase, true⟩, after) ∧ Above high store after := by
  unfold publishRetention
  rw [if_neg room, on_bind_ok (on_write_exact _ _ _ _), on_bind_ok (on_sync _ _)]
  refine ⟨_, rfl, by simp, ?_, ?_⟩
  · rw [content_sync, content_update_same]
    exact write_agree_above _ _ _ _ _ long (by rw [retention_length]; omega)
  · rw [content_sync, content_update_same]
    exact Nat.le_trans long (write_grows _ _ _)

-- The last steps, once the set is in its place.
theorem finish_front {state : RetentionState} {count dataEnd last time tail : Nat} {front : Finished} {middle : Store}
    (room : state.revision ≤ uint64Max - 2)
    (back : on (copyBack state count dataEnd last time tail) store = (.ok front, middle))
    (near : front.state.revision ≤ state.revision + 1) (long : front.dataEnd ≤ (middle.content .database).length) :
    ∃ after, on (finishRetention state count dataEnd last time tail) store =
        (.ok ⟨front.dataEnd, front.tail, ⟨front.state.revision + 1, 160, 0, true⟩⟩, after) ∧
      Above front.dataEnd middle after := by
  have large : uint64Max = 18446744073709551615 := rfl
  unfold finishRetention
  rw [on_require_bind, if_pos room, on_bind_ok back, on_bind_ok (on_truncate _ _ _), on_bind_ok (on_sync _ _)]
  generalize cutEq : (middle.update .database (.truncate (if front.dataEnd = 160 then 161 else front.dataEnd))).sync
    .database = cut
  have above : Above front.dataEnd middle cut := by
    rw [← cutEq]
    refine ⟨by simp, ?_, ?_⟩
    · rw [content_sync, content_update_same]
      exact (resize_agree _ _ _ (by split <;> omega) long).mono (Nat.zero_le _) (Nat.le_refl _)
    · rw [content_sync, content_update_same, Update.apply, resize_length]
      split <;> omega
  obtain ⟨after, ran, kept⟩ := @publish_ok cut front.state (by omega) count front.dataEnd last time front.tail 160 0
    front.dataEnd above.long
  rw [on_bind_ok ran]
  exact ⟨after, rfl, above.trans kept⟩

-- Cutting the WAL comes last and cannot be refused.
theorem recover_ok {finished : Finished} {after : Store}
    (ran : on (finishPair v) ((store.sync .database).sync .wal) = (.ok finished, after)) :
    ∃ last, on (recoverPair v) store = (.ok (v.handle finished), last) ∧
      last.content .database = after.content .database ∧
      last.content .wal =
        if v.walOffset < v.walSize then resize (after.content .wal) v.walOffset else after.content .wal := by
  unfold recoverPair
  rw [on_bind_ok (on_provision _ _), on_bind_ok (on_provision _ _), on_bind_ok ran]
  by_cases more : v.walOffset < v.walSize
  · rw [if_pos more, if_pos more, on_bind_ok (on_truncate _ _ _), on_bind_ok (on_sync _ _)]
    exact ⟨_, rfl, by simp, by rw [content_sync, content_update_same]; rfl⟩
  · rw [if_neg more, if_neg more]
    exact ⟨_, rfl, rfl, rfl⟩

theorem recover_error {error : Error} {after : Store}
    (ran : on (finishPair v) ((store.sync .database).sync .wal) = (.error error, after)) :
    on (recoverPair v) store = (.error error, after) := by
  unfold recoverPair
  rw [on_bind_ok (on_provision _ _), on_bind_ok (on_provision _ _), on_bind_error ran]

theorem content_synced (store : Store) (file : File) : ((store.sync .database).sync .wal).content file = store.content file := by
  simp

/-- What a recovery that goes through leaves. -/
structure Recovered (store : Store) (v : Validated) (finished : Finished) (after : Store) : Prop where
  wal : after.content .wal =
    if v.walOffset < v.walSize then resize (store.content .wal) v.walOffset else store.content .wal
  enabled : finished.state.enabled = v.manifests.state.enabled
  idle : v.manifests.state.phase = 0 → finished = ⟨v.manifests.dataEnd, v.checked.tail, v.manifests.state⟩ ∧
    after.content .database = store.content .database
  kept : v.manifests.state.phase ≠ 0 → v.manifests.state.phase ≠ 2 → finished.dataEnd = v.manifests.dataEnd ∧
    finished.tail = v.checked.tail ∧
    Agree (store.content .database) (after.content .database) 160 v.manifests.dataEnd ∧
    v.manifests.dataEnd ≤ (after.content .database).length
  copied : v.manifests.state.phase = 2 → (copyBytes (store.content .database) v.manifests).2 = true ∧
    finished.dataEnd = 160 + (copyBytes (store.content .database) v.manifests).1.length ∧
    Holds (after.content .database) 160 (copyBytes (store.content .database) v.manifests).1 ∧
    finished.dataEnd ≤ (after.content .database).length
  tailed : v.manifests.state.phase = 2 → ∃ start copied ended, start.content .database = store.content .database ∧
    on (copyLoop v.manifests.dataEnd false 0 (v.manifests.dataEnd - v.manifests.state.root) v.manifests.state.root
      ⟨160, 0, 0, List.replicate 24 0⟩) start = (.ok copied, ended) ∧ finished.tail = copied.previous

theorem busy_bounds {m : Manifests} (found : chosen (store.content .database) = some m) (busy : m.state.phase ≠ 0) :
    Bounded m (m.state.revision % 2) (store.content .database).length := by
  rcases chosen_cases found with current | ⟨rfl, _⟩ | ⟨rfl, _⟩
  · exact selected_bounds current
  · exact absurd rfl busy
  · exact absurd rfl busy

/-- Recovery of an accepted pair refuses only in phase 2, or for want of revisions. -/
theorem recover_cases (accepted : Accepted store v) :
    (∃ finished after, on (recoverPair v) store = (.ok (v.handle finished), after) ∧ Recovered store v finished after) ∨
      (v.manifests.state.phase ≠ 0 ∧ uint64Max - 2 < v.manifests.state.revision ∧ on (recoverPair v) store =
        (.error (.errno .eoverflow), (store.sync .database).sync .wal)) ∨
      (v.manifests.state.phase = 2 ∧ v.manifests.state.revision ≤ uint64Max - 2 ∧
        (copyBytes (store.content .database) v.manifests).2 = false ∧
        ∃ after, on (recoverPair v) store = (.error .invalidDatabase, after) ∧
          after.content .wal = store.content .wal ∧
          after.content .database =
            writeAt (store.content .database) 160 (copyBytes (store.content .database) v.manifests).1) := by
  by_cases idle : v.manifests.state.phase = 0
  · refine .inl ⟨_, _, recover_idle idle, ?_, rfl, fun _ => ⟨rfl, ?_⟩, fun busy => absurd idle busy,
      fun copying => by omega, fun copying => by omega⟩
    · by_cases more : v.walOffset < v.walSize
      · rw [if_pos more, if_pos more, content_sync, content_update_same, content_synced]
        rfl
      · rw [if_neg more, if_neg more, content_synced]
    · by_cases more : v.walOffset < v.walSize
      · rw [if_pos more, content_sync, content_update_wal, content_synced]
      · rw [if_neg more, content_synced]
  have step : finishPair v = finishRetention v.manifests.state v.manifests.generation v.manifests.dataEnd
      v.manifests.last v.checked.lastTime v.checked.tail := by
    unfold finishPair
    exact if_pos idle
  have bounds := busy_bounds accepted.found idle
  have place := bounds.place
  have low := bounds.low
  have root := bounds.root
  have size := bounds.size
  have size' : v.manifests.dataEnd ≤ (((store.sync .database).sync .wal).content .database).length := by
    rw [content_synced]
    exact size
  by_cases room : v.manifests.state.revision ≤ uint64Max - 2
  · by_cases copying : v.manifests.state.phase = 2
    · rw [if_pos copying] at place
      have same : Agree (((store.sync .database).sync .wal).content .database) (store.content .database)
          v.manifests.state.root v.manifests.dataEnd := by
        rw [content_synced]
        exact agree_refl _ _ _
      obtain ⟨after, copied, ran, wal, database, reached⟩ := @copy_chain_bytes (store.content .database)
        ((store.sync .database).sync .wal) v.manifests.dataEnd (v.manifests.dataEnd - v.manifests.state.root)
        v.manifests.state.root ⟨160, 0, 0, List.replicate 24 0⟩ same size' root
        (Nat.le_refl _) (by simp only; omega)
      have short := @chain_copy_length (store.content .database) v.manifests.dataEnd
        (v.manifests.dataEnd - v.manifests.state.root) v.manifests.state.root ⟨160, 0, 0, List.replicate 24 0⟩ root
      rw [content_synced] at wal database
      change on (copyLoop _ _ _ _ _ _) _ =
        (if (copyBytes (store.content .database) v.manifests).2 then _ else _, after) at ran
      change (copyBytes (store.content .database) v.manifests).1.length ≤ _ at short
      change (copyBytes (store.content .database) v.manifests).2 = true →
        copied.destination = 160 + (copyBytes (store.content .database) v.manifests).1.length at reached
      change after.content .database =
        writeAt (store.content .database) 160 (copyBytes (store.content .database) v.manifests).1 at database
      cases whole : (copyBytes (store.content .database) v.manifests).2 with
      | true =>
          have reached := reached whole
          rw [whole, if_pos rfl] at ran
          have held := holds_write (store.content .database) 160 (copyBytes (store.content .database) v.manifests).1
          rw [← database] at held
          have long : copied.destination ≤ ((after.sync .database).content .database).length := by
            have grown := write_grows (store.content .database) 160 (copyBytes (store.content .database) v.manifests).1
            rw [← database] at grown
            rw [content_sync]
            omega
          obtain ⟨last, published, kept⟩ := @publish_ok (after.sync .database) v.manifests.state
            (by simp only [uint64Max] at room ⊢; omega) v.manifests.generation copied.destination v.manifests.last
            v.checked.lastTime copied.previous 160 3 copied.destination long
          have back : on (copyBack v.manifests.state v.manifests.generation v.manifests.dataEnd v.manifests.last
              v.checked.lastTime v.checked.tail) ((store.sync .database).sync .wal) =
              (.ok ⟨copied.destination, copied.previous, ⟨v.manifests.state.revision + 1, 160, 3, true⟩⟩, last) := by
            unfold copyBack copySegments
            rw [if_pos copying]
            have copies : on (do
                let copy ← copyLoop v.manifests.dataEnd false 0 (v.manifests.dataEnd - v.manifests.state.root)
                  v.manifests.state.root ⟨160, 0, 0, List.replicate 24 0⟩
                fileSync .database
                pure (copy.destination, copy.previous) : Io (Nat × Nat)) ((store.sync .database).sync .wal) =
                (.ok (copied.destination, copied.previous), after.sync .database) := by
              rw [on_bind_ok ran, on_bind_ok (on_sync _ _)]
              rfl
            rw [on_bind_ok copies, on_bind_ok published]
            rfl
          obtain ⟨end_, ended, kept'⟩ := finish_front room back (Nat.le_refl _) kept.long
          rw [← step] at ended
          obtain ⟨final, recovered, sameData, sameWal⟩ := recover_ok ended
          have above := kept.trans kept'
          have walKept : end_.content .wal = store.content .wal := above.wal.trans ((content_sync _ _ _).trans wal)
          refine .inl ⟨_, final, recovered, ?_, (bounds.enabled idle).symm, fun still => absurd still idle,
            fun _ other => absurd copying other, fun _ => ⟨whole, reached, ?_, ?_⟩,
            fun _ => ⟨_, _, _, content_synced _ _, ran, rfl⟩⟩
          · rw [sameWal, walKept]
          · rw [sameData]
            refine Holds.agree ?_ above.data (Nat.le_refl _) (by omega)
            rw [content_sync]
            exact held
          · rw [sameData]
            exact above.long
      | false =>
          rw [whole, if_neg (by decide)] at ran
          refine .inr (.inr ⟨copying, room, rfl, after, recover_error ?_, wal, database⟩)
          rw [step]
          unfold finishRetention copyBack copySegments
          rw [on_require_bind, if_pos room, if_pos copying]
          exact on_bind_error (on_bind_error (on_bind_error ran))
    · have back : on (copyBack v.manifests.state v.manifests.generation v.manifests.dataEnd v.manifests.last
          v.checked.lastTime v.checked.tail) ((store.sync .database).sync .wal) =
          (.ok ⟨v.manifests.dataEnd, v.checked.tail, v.manifests.state⟩, (store.sync .database).sync .wal) := by
        unfold copyBack
        rw [if_neg copying]
        rfl
      obtain ⟨end_, ended, above⟩ := finish_front room back (Nat.le_succ _) size'
      rw [← step] at ended
      obtain ⟨final, recovered, sameData, sameWal⟩ := recover_ok ended
      refine .inl ⟨_, final, recovered, ?_, (bounds.enabled idle).symm, fun still => absurd still idle,
        fun _ _ => ⟨rfl, rfl, ?_, ?_⟩, fun other => absurd other copying, fun other => absurd other copying⟩
      · rw [sameWal, above.wal, content_synced]
      · rw [sameData, ← content_synced store]
        exact above.data
      · rw [sameData]
        exact above.long
  · refine .inr (.inl ⟨idle, by omega, recover_error ?_⟩)
    rw [step]
    unfold finishRetention
    rw [on_require_bind, if_neg room]

end Recovery

/-- A refused open of two existing files leaves both as they were, exactly when no damaged retained set is copied. -/
theorem refused_unchanged {store : Store} {db : Batches} {mode : OpenMode} {scratchSize : Nat} (present : Present store)
    (closed : db.database = false ∧ db.wal = false) (large : batchScratch ≤ scratchSize) (old : mode ≠ .createNew) :
    (∀ error, FormatError error → (Host.call ⟨store, db⟩ (.openPair mode scratchSize)).1 = .error error →
      ∀ file, (Host.call ⟨store, db⟩ (.openPair mode scratchSize)).2.store.content file = store.content file) ↔
    FailsClosed store := by
  have call := call_open present closed large old
  constructor
  · intro unchanged v ran copying room
    have whole := Images.reads_validatePair.on_eq store
    rw [ran] at whole
    rcases recover_cases (accepted ran) with ⟨finished, _, _, recovered⟩ | ⟨_, beyond, _⟩ |
      ⟨_, _, _, after, refused, _, database⟩
    · exact .inl (recovered.copied copying).1
    · omega
    · have opened : on recovering store = (.error .invalidDatabase, after) := (on_bind_ok whole).trans refused
      rw [opened] at call
      have same := unchanged .invalidDatabase (.inl rfl) (by rw [call]) .database
      rw [call, database] at same
      have held := holds_write (store.content .database) 160 (copyBytes (store.content .database) v.manifests).1
      rw [same] at held
      exact .inr held
  · intro closes error format failed file
    have whole := Images.reads_validatePair.on_eq store
    cases ran : (on validatePair store).1 with
    | error error' =>
        rw [ran] at whole
        have opened : on recovering store = (.error error', store) := on_bind_error whole
        rw [opened] at call
        rw [call]
    | ok v =>
        rw [ran] at whole
        rcases recover_cases (accepted ran) with ⟨finished, after, refused, _⟩ | ⟨_, _, refused⟩ |
          ⟨copying, room, damaged, after, refused, wal, database⟩
        · have opened : on recovering store = (.ok (v.handle finished), after) := (on_bind_ok whole).trans refused
          rw [opened] at call
          rw [call] at failed
          cases failed
        · have opened : on recovering store = (.error (.errno .eoverflow), (store.sync .database).sync .wal) :=
            (on_bind_ok whole).trans refused
          rw [opened] at call
          rw [call]
          exact content_synced store file
        · have opened : on recovering store = (.error .invalidDatabase, after) := (on_bind_ok whole).trans refused
          rw [opened] at call
          rw [call]
          cases file with
          | wal => exact wal
          | database =>
              rcases closes v ran copying room with through | stands
              · rw [damaged] at through
                cases through
              · have bounds := busy_bounds (accepted ran).found (by omega)
                have place := bounds.place
                rw [if_pos copying] at place
                have size := bounds.size
                have root := bounds.root
                have low := bounds.low
                have short := @chain_copy_length (store.content .database) v.manifests.dataEnd
                  (v.manifests.dataEnd - v.manifests.state.root) v.manifests.state.root ⟨160, 0, 0, List.replicate 24 0⟩ root
                change (copyBytes (store.content .database) v.manifests).1.length ≤ _ at short
                exact database.trans (write_same stands (by omega))

/-- A set of one segment waits to be copied back, and its one frame is damaged. -/
def damagedStore : Store where
  database := some (settled (encodePair databaseMagic (List.replicate 16 7) ++ encodeRetention 2 1 456 1 5 308 308 2 ++
    List.replicate 64 0 ++ List.replicate 148 0 ++ encodeSegment 1 1 84 5 5 0 0 true ++ List.replicate 84 0))
  wal := some (settled (encodePair walMagic (List.replicate 16 7)))
  entropy := []

-- The segment header is written before the frame is read.
theorem damaged_changed : (Host.call ⟨damagedStore, batchesInit⟩ (.openPair .openExisting batchScratch)).1 =
      .error .invalidDatabase ∧
    (Host.call ⟨damagedStore, batchesInit⟩ (.openPair .openExisting batchScratch)).2.store.content .database ≠
      damagedStore.content .database := by
  decide +kernel

theorem refused_changes : ¬ ∀ (store : Store) (error : Error), Present store → FormatError error →
    (Host.call ⟨store, batchesInit⟩ (.openPair .openExisting batchScratch)).1 = .error error →
    ∀ file, (Host.call ⟨store, batchesInit⟩ (.openPair .openExisting batchScratch)).2.store.content file =
      store.content file :=
  fun unchanged => damaged_changed.2
    (unchanged damagedStore .invalidDatabase ⟨rfl, rfl⟩ (.inl rfl) damaged_changed.1 .database)

theorem refused_unchanged_damaged : ¬ FailsClosed damagedStore := fun closes =>
  damaged_changed.2 ((refused_unchanged ⟨rfl, rfl⟩ ⟨rfl, rfl⟩ (Nat.le_refl batchScratch)
    (show OpenMode.openExisting ≠ .createNew by decide)).mpr closes .invalidDatabase (.inl rfl) damaged_changed.1 .database)

end Timelite.Refusing
