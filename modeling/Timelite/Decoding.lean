import Timelite.Appending
import Timelite.Cursor

/-!
Frames read back: the bytes of an accepted frame are the encoding of the batch
decoded from them, and what append writes is accepted with its records.
-/
namespace Timelite.Decoding
open ByteFile Program Durable Codec CodecLaws Backend BackendLaws Layout FrameLaws Reader BatchApi Appending

section Bytes
variable {m : Bytes}

theorem holds_sealed {body : Bytes} (held : Holds m 0 body) (room : body.length + 4 ≤ m.length)
    (checks : checksum (m.take body.length) = decode32 (m.drop body.length)) : Holds m 0 (sealed body) := by
  rw [sealed, holds_append, Nat.zero_add]
  refine ⟨held, ?_⟩
  have front : m.take body.length = body := take_holds held rfl
  have last : Holds m body.length (encode32 (decode32 (m.drop body.length))) := holds_decode32 room
  rwa [← checks, front] at last

theorem holds_take (width : Nat) (room : width ≤ m.length) : Holds m 0 (m.take width) := by
  simp [Holds, readAt, List.take_take]

theorem holds_field64 {offset value : Nat} (room : offset + 8 ≤ m.length) (same : decode64 (m.drop offset) = value) :
    Holds m offset (encode64 value) := by
  rw [← same]
  exact holds_decode64 room

theorem holds_field32 {offset value : Nat} (room : offset + 4 ≤ m.length) (same : decode32 (m.drop offset) = value) :
    Holds m offset (encode32 value) := by
  rw [← same]
  exact holds_decode32 room

/-- A header that passes the check is the header of its sequence and count. -/
theorem checked_header {sequence : Nat} (room : 32 ≤ m.length) (passes : checkFrameHeader m = true)
    (numbered : decode64 (m.drop 8) = sequence) :
    Holds m 0 (frameHeader sequence (decode32 (m.drop 16))) ∧ 0 < decode32 (m.drop 16) ∧
      decode32 (m.drop 16) ≤ maxRecords ∧ decode32 (m.drop 20) = 32 + decode32 (m.drop 16) * 20 := by
  simp only [checkFrameHeader, decide_eq_true_eq] at passes
  obtain ⟨magic, some, few, length, reserved, checks⟩ := passes
  refine ⟨holds_sealed ?_ ?_ ?_, Nat.pos_of_ne_zero some, few, length⟩
  · simp only [holds_append, List.length_append, encode64_length, encode32_length, batchMagic, List.length_cons,
      List.length_nil]
    have front := holds_take 8 (m := m) (by omega)
    rw [magic, batchMagic] at front
    exact ⟨⟨⟨⟨front, holds_field64 (by omega) numbered⟩, holds_field32 (by omega) rfl⟩,
      holds_field32 (by omega) length⟩, holds_field32 (by omega) reserved⟩
  · simp [batchMagic, room]
  · simpa [batchMagic] using checks

theorem checked_commit {sequence : Nat} {records : List Record} (room : 32 ≤ m.length)
    (magic : m.take 8 = commitMagic) (numbered : decode64 (m.drop 8) = sequence)
    (counted : decode32 (m.drop 16) = records.length) (length : decode32 (m.drop 20) = 32 + records.length * 20)
    (sum : decode32 (m.drop 24) = checksum (frameBody sequence records))
    (checks : decode32 (m.drop 28) = checksum (m.take 28)) : Holds m 0 (frameCommit sequence records) := by
  refine holds_sealed ?_ ?_ ?_
  · simp only [holds_append, List.length_append, encode64_length, encode32_length, commitMagic, List.length_cons,
      List.length_nil]
    have front := holds_take 8 (m := m) (by omega)
    rw [magic, commitMagic] at front
    exact ⟨⟨⟨⟨front, holds_field64 (by omega) numbered⟩, holds_field32 (by omega) counted⟩,
      holds_field32 (by omega) length⟩, holds_field32 (by omega) sum⟩
  · simp [commitMagic, room]
  · simpa [commitMagic] using checks.symm

/-- Every 20 bytes are the encoding of the record decoded from them. -/
theorem holds_decoded {offset : Nat} (room : offset + 20 ≤ m.length) :
    Holds m offset (encodeRecord (decodeRecord (m.drop offset))) := by
  have series : (UInt32.ofNat (decode32 (m.drop offset))).toNat = decode32 (m.drop offset) := by
    rw [UInt32.toNat_ofNat']
    exact Nat.mod_eq_of_lt (decode32_lt _)
  have time : (UInt64.ofNat (decode64 (m.drop (offset + 4)))).toNat = decode64 (m.drop (offset + 4)) := by
    rw [UInt64.toNat_ofNat']
    exact Nat.mod_eq_of_lt (decode64_lt _)
  have value := signed_unsigned (decode64_lt (m.drop (offset + 12)))
  rw [encodeRecord, holds_append, holds_append]
  simp only [decodeRecord, List.drop_drop, series, time, value, List.length_append, encode32_length, encode64_length]
  exact ⟨⟨holds_decode32 (by omega), holds_decode64 (by omega)⟩, holds_decode64 (by omega)⟩

-- Induction on the number of records, from the last one.
theorem holds_records {offset : Nat} (count : Nat) (room : offset + count * 20 ≤ m.length) :
    Holds m offset (((List.range count).map fun i => decodeRecord (m.drop (offset + i * 20))).flatMap encodeRecord) := by
  induction count with
  | zero => exact holds_nil m offset
  | succ count ih =>
      rw [List.range_succ, List.map_append, List.flatMap_append, holds_append]
      refine ⟨ih (by omega), ?_⟩
      rw [records_length, List.length_map, List.length_range]
      simp only [List.map_cons, List.map_nil, List.flatMap_cons, List.flatMap_nil, List.append_nil]
      exact holds_decoded (by omega)

end Bytes

section Reading
variable {file : File} {store : Store} {offset limit sequence : Nat}

/-- What a successful `readFrame` has checked. -/
theorem read_frame_checks {found : Frame}
    (ran : (on (readFrame file offset limit sequence) store).1 = .ok found) :
    ∃ header rest : Bytes, Holds (store.content file) offset (header ++ rest) ∧ header.length = 32 ∧
      checkFrameHeader header = true ∧ decode64 (header.drop 8) = sequence ∧
      rest.length = decode32 (header.drop 20) ∧ offset + (decode32 (header.drop 20) + 32) ≤ limit ∧
      found = ⟨header ++ rest, decode32 (header.drop 16)⟩ ∧
      (let commit := (header ++ rest).drop (decode32 (header.drop 20))
       commit.take 8 = commitMagic ∧ decode64 (commit.drop 8) = sequence ∧
        decode32 (commit.drop 16) = decode32 (header.drop 16) ∧ decode32 (commit.drop 20) = decode32 (header.drop 20) ∧
        decode32 (commit.drop 24) = checksum ((header ++ rest).take (decode32 (header.drop 20))) ∧
        decode32 (commit.drop 28) = checksum (commit.take 28)) := by
  rw [readFrame, on_require_bind] at ran
  by_cases room : 32 ≤ limit - offset
  · rw [if_pos room, on_bind, on_read_exact] at ran
    by_cases full : (readAt (store.content file) offset 32).length = 32
    · rw [if_pos full] at ran
      simp only [on_require_bind] at ran
      generalize shape : readAt (store.content file) offset 32 = header at ran full
      have front : Holds (store.content file) offset header := by rw [Holds, full, shape]
      by_cases passes : checkFrameHeader header = true ∧ decode64 (header.drop 8) = sequence
      · rw [if_pos passes] at ran
        by_cases fits : decode32 (header.drop 20) + 32 ≤ limit - offset
        · rw [if_pos fits, on_bind, on_read_exact] at ran
          by_cases whole : (readAt (store.content file) (offset + 32) (decode32 (header.drop 20))).length =
              decode32 (header.drop 20)
          · rw [if_pos whole] at ran
            simp only [on_require_bind] at ran
            generalize shape' : readAt (store.content file) (offset + 32) (decode32 (header.drop 20)) = rest at ran whole
            have back : Holds (store.content file) (offset + 32) rest := by rw [Holds, whole, shape']
            by_cases commits : ((header ++ rest).drop (decode32 (header.drop 20))).take 8 = commitMagic ∧
                decode64 (((header ++ rest).drop (decode32 (header.drop 20))).drop 8) = sequence ∧
                decode32 (((header ++ rest).drop (decode32 (header.drop 20))).drop 16) = decode32 (header.drop 16) ∧
                decode32 (((header ++ rest).drop (decode32 (header.drop 20))).drop 20) = decode32 (header.drop 20) ∧
                decode32 (((header ++ rest).drop (decode32 (header.drop 20))).drop 24) =
                  checksum ((header ++ rest).take (decode32 (header.drop 20))) ∧
                decode32 (((header ++ rest).drop (decode32 (header.drop 20))).drop 28) =
                  checksum ((((header ++ rest).drop (decode32 (header.drop 20)))).take 28)
            · rw [if_pos commits, on_pure] at ran
              refine ⟨header, rest, ?_, full, passes.1, passes.2, whole, by omega, (Except.ok.inj ran).symm, commits⟩
              rw [holds_append, full]
              exact ⟨front, back⟩
            · rw [if_neg commits] at ran
              cases ran
          · rw [if_neg whole] at ran
            cases ran
        · rw [if_neg fits] at ran
          cases ran
      · rw [if_neg passes] at ran
        cases ran
    · rw [if_neg full] at ran
      cases ran
  · rw [if_neg room] at ran
    cases ran

/-- What `readFrame` accepts is a frame of the file, and the encoding of its records. -/
theorem accepted_frame {found : Frame} (ran : (on (readFrame file offset limit sequence) store).1 = .ok found) :
    Holds (store.content file) offset found.bytes ∧ offset + found.bytes.length ≤ limit ∧
      0 < found.records ∧ found.records ≤ maxRecords ∧ (frameRecords found).length = found.records ∧
      found.bytes = frame sequence (frameRecords found) := by
  obtain ⟨header, rest, held, full, passes, numbered, whole, fits, rfl, magic, again, count, length, sum, checks⟩ :=
    read_frame_checks ran
  obtain ⟨front, some, few, size⟩ := checked_header (Nat.le_of_eq full.symm) passes numbered
  generalize counted : decode32 (header.drop 16) = n at *
  rw [size] at whole fits magic again count length sum checks
  have head : header = frameHeader sequence n := by
    have taken := take_holds front (frame_header_length _ _)
    rwa [List.take_of_length_le (by omega)] at taken
  have total : (header ++ rest).length = 64 + n * 20 := by
    rw [List.length_append]
    omega
  have decoded := @holds_records (header ++ rest) 32 n (by omega)
  generalize records_ : (List.range n).map (fun i => decodeRecord ((header ++ rest).drop (32 + i * 20))) = records
    at decoded
  have records' : frameRecords ⟨header ++ rest, n⟩ = records := records_
  have size' : records.length = n := by rw [← records_, List.length_map, List.length_range]
  have body : Holds (header ++ rest) 0 (frameBody sequence records) := by
    rw [frameBody, holds_append, Nat.zero_add, frame_header_length, size', ← head]
    exact ⟨(holds_self header).append_right rest, decoded⟩
  have front' := take_holds body (frame_body_length _ _)
  rw [size'] at front'
  rw [front'] at sum
  have commit : Holds ((header ++ rest).drop (32 + n * 20)) 0 (frameCommit sequence records) :=
    checked_commit (by rw [List.length_drop]; omega) magic again (size'.symm ▸ count) (size'.symm ▸ length) sum checks
  refine ⟨held, by rw [total]; omega, some, few, by rw [records', size'], ?_⟩
  have back := take_holds commit (frame_commit_length _ _)
  rw [List.take_of_length_le (by rw [List.length_drop]; omega)] at back
  rw [records', frame, ← front', ← back]
  exact (List.take_append_drop _ _).symm

end Reading

section Writing
variable {store : Store} {db : Batches} {records : List Record}

-- The body and the commit make up the frame, whatever the file held.
theorem written_frame (db : Batches) (records : List Record) (store : Store) :
    Holds ((on (writeFrame db records) store).2.content .wal) db.walEnd (frame (db.sequence + 1) records) := by
  have ran : (on (writeFrame db records) store).2.content .wal =
      writeAt (writeAt (store.content .wal) db.walEnd (frameBody (db.sequence + 1) records))
        (db.walEnd + (frameBody (db.sequence + 1) records).length) (frameCommit (db.sequence + 1) records) := by
    simp [writeFrame, on_bind]
    rfl
  rw [ran, frame, holds_append]
  exact ⟨(holds_write _ _ _).write _ _ (.inl (Nat.le_refl _)), holds_write _ _ _⟩

end Writing

/-- Frames are read back as they were written, and only encodings are accepted: no two
byte strings decode to the same batch. -/
theorem frame_codec :
    (∀ (store : Store) (db : Batches) (records : List Record), 0 < records.length → records.length ≤ maxRecords →
      db.sequence < uint64Max →
      let after := (on (writeFrame db records) store).2
      let found : Frame := ⟨frame (db.sequence + 1) records, records.length⟩
      (∀ limit, db.walEnd + found.bytes.length ≤ limit →
        on (readFrame .wal db.walEnd limit (db.sequence + 1)) after = (.ok found, after)) ∧
      frameRecords found = records) ∧
    ∀ (store : Store) (file : File) (offset limit sequence : Nat) (found : Frame),
      (on (readFrame file offset limit sequence) store).1 = .ok found →
      Holds (store.content file) offset found.bytes ∧ 0 < found.records ∧ found.records ≤ maxRecords ∧
        (frameRecords found).length = found.records ∧ found.bytes = frame sequence (frameRecords found) ∧
        ∀ (store' : Store) (file' : File) (offset' limit' : Nat) (other : Frame),
          (on (readFrame file' offset' limit' sequence) store').1 = .ok other →
          frameRecords other = frameRecords found → other.bytes = found.bytes := by
  refine ⟨fun store db records some few small => ?_, fun store file offset limit sequence found ran => ?_⟩
  · simp only [uint64Max] at small
    have batch : ∃ batch : Batch, batch.records = records := ⟨⟨records, List.length_pos_iff.mp some, few⟩, rfl⟩
    obtain ⟨batch, rfl⟩ := batch
    refine ⟨fun limit fits => ?_, Cursor.frame_records (db.sequence + 1) batch⟩
    rw [frame_length] at fits
    exact read_frame (written_frame db batch.records store) fits (by omega)
  · obtain ⟨held, _, some, few, length, same⟩ := accepted_frame ran
    refine ⟨held, some, few, length, same, fun store' file' offset' limit' other ran' decoded => ?_⟩
    obtain ⟨_, _, _, _, _, same'⟩ := accepted_frame ran'
    rw [same', decoded, same]

/-- The extreme values survive the round trip. -/
theorem frame_codec_extremes :
    frameRecords ⟨frame 1 [⟨4294967295, 18446744073709551615, Int64.minValue⟩, ⟨0, 0, Int64.maxValue⟩], 2⟩ =
      [⟨4294967295, 18446744073709551615, Int64.minValue⟩, ⟨0, 0, Int64.maxValue⟩] :=
  (frame_codec.1 ⟨none, none, []⟩ batchesInit
    [⟨4294967295, 18446744073709551615, Int64.minValue⟩, ⟨0, 0, Int64.maxValue⟩] (by decide) (by decide)
    (by decide)).2

end Timelite.Decoding
