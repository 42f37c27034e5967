import Timelite.BackendLaws
import Timelite.Layout

/-!
`readFrame` against the bytes of a frame: a complete frame is read back with
its records, a frame cut by the limit after its header is `endOfData`, a limit
closer than a header is damage.
-/
namespace Timelite.FrameLaws
open ByteFile Program Codec CodecLaws Backend BackendLaws Layout Reader

section Fields

theorem header_fields {m : Bytes} {sequence count : Nat}
    (held : Holds m 0 (frameHeader sequence count)) :
    Holds m 0 batchMagic ∧ Holds m 8 (encode64 sequence) ∧ Holds m 16 (encode32 count) ∧
      Holds m 20 (encode32 (32 + count * 20)) ∧ Holds m 24 (encode32 0) ∧
      checksum (m.take 28) = decode32 (m.drop 28) := by
  have checks := sealed_checks held
  rw [frameHeader, sealed, holds_append] at held
  have body := held.1
  simp only [holds_append, List.length_append, encode64_length, encode32_length, batchMagic,
    List.length_cons, List.length_nil] at body checks
  simp only [batchMagic]
  obtain ⟨⟨⟨⟨a, b⟩, c⟩, d⟩, e⟩ := body
  exact ⟨a, b, c, d, e, checks⟩

theorem commit_fields {m : Bytes} {sequence : Nat} {records : List Record}
    (held : Holds m 0 (frameCommit sequence records)) :
    Holds m 0 commitMagic ∧ Holds m 8 (encode64 sequence) ∧ Holds m 16 (encode32 records.length) ∧
      Holds m 20 (encode32 (32 + records.length * 20)) ∧
      Holds m 24 (encode32 (checksum (frameBody sequence records))) ∧
      checksum (m.take 28) = decode32 (m.drop 28) := by
  have checks := sealed_checks held
  rw [frameCommit, sealed, holds_append] at held
  have body := held.1
  simp only [holds_append, List.length_append, encode64_length, encode32_length, commitMagic,
    List.length_cons, List.length_nil] at body checks
  simp only [commitMagic]
  obtain ⟨⟨⟨⟨a, b⟩, c⟩, d⟩, e⟩ := body
  exact ⟨a, b, c, d, e, checks⟩

theorem take_holds {m bytes : Bytes} (held : Holds m 0 bytes) {width : Nat}
    (size : bytes.length = width) : m.take width = bytes := by
  simpa using drop_take_holds held size

theorem header_checks {m : Bytes} {sequence : Nat} {batch : Batch}
    (held : Holds m 0 (frameHeader sequence batch.records.length)) : checkFrameHeader m = true := by
  have some := batch.length_pos
  have few := batch.length_le
  obtain ⟨magic, _, count, length, reserved, checks⟩ := header_fields held
  have counted : decode32 (m.drop 16) = batch.records.length := decode32_holds count (by omega)
  have sized : decode32 (m.drop 20) = 32 + batch.records.length * 20 := decode32_holds length (by omega)
  have zero : decode32 (m.drop 24) = 0 := decode32_holds reserved (by omega)
  simp only [checkFrameHeader, counted, sized, zero, decide_eq_true_eq, maxRecords]
  exact ⟨take_holds magic rfl, by omega, by omega, trivial, trivial, checks⟩

theorem header_sequence {m : Bytes} {sequence count : Nat}
    (held : Holds m 0 (frameHeader sequence count)) (small : sequence < 18446744073709551616) :
    decode64 (m.drop 8) = sequence :=
  decode64_holds (header_fields held).2.1 small

theorem frame_header (sequence : Nat) (records : List Record) :
    Holds (frame sequence records) 0 (frameHeader sequence records.length) := by
  have whole := holds_self (frame sequence records)
  rw [frame, holds_append, frameBody, holds_append] at whole
  exact whole.1.1

-- Record `i` of a frame lies at its fixed place.
theorem holds_record {m : Bytes} {offset : Nat} {records : List Record}
    (held : Holds m offset (records.flatMap encodeRecord)) {i : Nat} {record : Record}
    (found : records[i]? = some record) : Holds m (offset + i * 20) (encodeRecord record) := by
  induction records generalizing offset i with
  | nil => simp at found
  | cons head rest ih =>
      rw [List.flatMap_cons, holds_append, encode_record_length] at held
      cases i with
      | zero =>
          simp only [List.getElem?_cons_zero, Option.some.injEq] at found
          subst found
          simpa using held.1
      | succ i =>
          simp only [List.getElem?_cons_succ] at found
          have next := ih held.2 found
          have shift : offset + 20 + i * 20 = offset + (i + 1) * 20 := by omega
          rwa [shift] at next

theorem frame_record {sequence : Nat} {records : List Record} {i : Nat} {record : Record}
    (found : records[i]? = some record) :
    Holds (frame sequence records) (32 + i * 20) (encodeRecord record) := by
  have whole := holds_self (frame sequence records)
  rw [frame, holds_append, frameBody, holds_append, frame_header_length] at whole
  exact holds_record whole.1.2 found

theorem record_fields {m : Bytes} {offset : Nat} {record : Record}
    (held : Holds m offset (encodeRecord record)) :
    decode32 (m.drop offset) = record.series.toNat ∧
      decode64 (m.drop (offset + 4)) = record.timestamp.toNat ∧
      decode64 (m.drop (offset + 12)) = record.value.toUInt64.toNat := by
  rw [encodeRecord, holds_append, holds_append] at held
  simp only [List.length_append, encode32_length, encode64_length] at held
  obtain ⟨⟨series, time⟩, value⟩ := held
  exact ⟨decode32_holds series record.series.toNat_lt, decode64_holds time record.timestamp.toNat_lt,
    decode64_holds value record.value.toUInt64.toNat_lt⟩

theorem decode_record {m : Bytes} {offset : Nat} {record : Record}
    (held : Holds m offset (encodeRecord record)) : decodeRecord (m.drop offset) = record := by
  obtain ⟨series, time, value⟩ := record_fields held
  simp only [decodeRecord, List.drop_drop, series, time, value, UInt32.ofNat_toNat, UInt64.ofNat_toNat, signed_value]

theorem frame_time {sequence : Nat} {records : List Record} {i : Nat} {record : Record}
    (found : records[i]? = some record) :
    frameTime (frame sequence records) i = record.timestamp.toNat := by
  have held : Holds (frame sequence records) (32 + i * 20) (encodeRecord record) := frame_record found
  have time := (record_fields held).2.1
  have shift : 32 + i * 20 + 4 = 36 + i * 20 := by omega
  rwa [shift] at time

end Fields

section Reading
variable {file : File} {store : Store} {offset limit sequence : Nat}

def frameOf (sequence : Nat) (batch : Batch) : Frame := ⟨frame sequence batch.records, batch.records.length⟩

@[simp] theorem frame_of_length (sequence : Nat) (batch : Batch) :
    (frameOf sequence batch).bytes.length = batch.size := by
  simp [frameOf, Batch.size]

@[simp] theorem frame_of_records (sequence : Nat) (batch : Batch) :
    (frameOf sequence batch).records = batch.records.length := rfl

theorem frame_of_time (sequence : Nat) (batch : Batch) {i : Nat} {record : Record}
    (found : batch.records[i]? = some record) :
    frameTime (frameOf sequence batch).bytes i = record.timestamp.toNat :=
  frame_time found

theorem reads_readFrame (file : File) (offset limit sequence : Nat) :
    Reads (readFrame file offset limit sequence) :=
  reads_bind (reads_require _ _) fun _ => reads_bind (reads_read_exact _ _ _) fun _ =>
    reads_bind (reads_require _ _) fun _ => reads_bind (reads_require _ _) fun _ =>
    reads_bind (reads_read_exact _ _ _) fun _ => reads_bind (reads_require _ _) fun _ => reads_pure _

theorem read_frame {batch : Batch} (held : Holds (store.content file) offset (frame sequence batch.records))
    (fits : offset + batch.size ≤ limit) (small : sequence < 18446744073709551616) :
    on (readFrame file offset limit sequence) store = (.ok (frameOf sequence batch), store) := by
  have few := batch.length_le
  have size : batch.size = 64 + batch.records.length * 20 := rfl
  have parts := held
  rw [frame, frameBody, List.append_assoc, holds_append, frame_header_length] at parts
  obtain ⟨front, back⟩ := parts
  have head := on_read_holds front (frame_header_length _ _)
  have tail := on_read_holds back (show _ = 32 + batch.records.length * 20 by simp; omega)
  have shown : frameHeader sequence batch.records.length ++
      (batch.records.flatMap encodeRecord ++ frameCommit sequence batch.records) =
      frame sequence batch.records := by
    rw [frame, frameBody, List.append_assoc]
  have body : (frame sequence batch.records).take (32 + batch.records.length * 20) =
      frameBody sequence batch.records := by
    rw [frame, List.take_append_of_le_length (by simp)]
    exact List.take_of_length_le (by simp)
  have rest : (frame sequence batch.records).drop (32 + batch.records.length * 20) =
      frameCommit sequence batch.records := by
    rw [frame]
    exact List.drop_left' (by simp)
  have self := holds_self (frameHeader sequence batch.records.length)
  obtain ⟨_, _, count, length, _, _⟩ := header_fields self
  have counted : decode32 ((frameHeader sequence batch.records.length).drop 16) = batch.records.length :=
    decode32_holds count (by omega)
  have sized : decode32 ((frameHeader sequence batch.records.length).drop 20) =
      32 + batch.records.length * 20 := decode32_holds length (by omega)
  obtain ⟨magic, again, count', length', sum, checks⟩ :=
    commit_fields (holds_self (frameCommit sequence batch.records))
  have accepted : (frameCommit sequence batch.records).take 8 = commitMagic ∧
      decode64 ((frameCommit sequence batch.records).drop 8) = sequence ∧
      decode32 ((frameCommit sequence batch.records).drop 16) = batch.records.length ∧
      decode32 ((frameCommit sequence batch.records).drop 20) = 32 + batch.records.length * 20 ∧
      decode32 ((frameCommit sequence batch.records).drop 24) =
        checksum (frameBody sequence batch.records) ∧
      decode32 ((frameCommit sequence batch.records).drop 28) =
        checksum ((frameCommit sequence batch.records).take 28) :=
    ⟨take_holds magic rfl, decode64_holds again small, decode32_holds count' (by omega),
      decode32_holds length' (by omega), decode32_holds sum (checksum_lt _), checks.symm⟩
  rw [readFrame, on_require_bind, if_pos (by omega), on_bind_ok head, on_require_bind,
    if_pos ⟨header_checks self, header_sequence self small⟩, on_require_bind, sized, counted,
    if_pos (by omega), on_bind_ok tail, shown]
  simp only [rest, body]
  rw [on_require_bind, if_pos accepted, on_pure]
  rfl

-- The header of the frame is there, its end is beyond the limit.
theorem read_frame_cut {batch : Batch}
    (held : Holds (store.content file) offset (frameHeader sequence batch.records.length))
    (room : offset + 32 ≤ limit) (cut : limit < offset + batch.size)
    (small : sequence < 18446744073709551616) :
    on (readFrame file offset limit sequence) store = (.error .endOfData, store) := by
  have few := batch.length_le
  have size : batch.size = 64 + batch.records.length * 20 := rfl
  have head := on_read_holds held (frame_header_length _ _)
  have self := holds_self (frameHeader sequence batch.records.length)
  obtain ⟨_, _, count, length, _, _⟩ := header_fields self
  have sized : decode32 ((frameHeader sequence batch.records.length).drop 20) =
      32 + batch.records.length * 20 := decode32_holds length (by omega)
  rw [readFrame, on_require_bind, if_pos (by omega), on_bind_ok head, on_require_bind,
    if_pos ⟨header_checks self, header_sequence self small⟩, on_require_bind, sized, if_neg (by omega)]

theorem read_frame_short (near : limit < offset + 32) :
    on (readFrame file offset limit sequence) store = (.error .invalidDatabase, store) := by
  rw [readFrame, on_require_bind, if_neg (by omega)]

-- A frame of another number is damage, whatever follows its header.
theorem read_frame_other {expected count : Nat} (held : Holds (store.content file) offset (frameHeader sequence count))
    (small : sequence < 18446744073709551616) (other : sequence ≠ expected) :
    on (readFrame file offset limit expected) store = (.error .invalidDatabase, store) := by
  have head := on_read_holds held (frame_header_length _ _)
  have self := holds_self (frameHeader sequence count)
  rw [readFrame, on_require_bind]
  split
  · rw [on_bind_ok head, on_require_bind, if_neg]
    rintro ⟨_, same⟩
    exact other ((header_sequence self small).symm.trans same)
  · rfl

theorem reads_complete {α : Type} {reading : Io α} (reads : Reads reading) :
    Reads (complete reading) := by
  refine reads_examine reads (fun code => rfl) fun result => ?_
  cases result with
  | ok value => exact reads_done _
  | error error => cases error <;> exact reads_done _

theorem on_complete_ok {α : Type} {reading : Io α} {value : α}
    (ran : on reading store = (.ok value, store)) : on (complete reading) store = (.ok value, store) := by
  rw [complete, on_examine, ran]
  rfl

theorem complete_frame {batch : Batch}
    (held : Holds (store.content file) offset (frame sequence batch.records))
    (fits : offset + batch.size ≤ limit) (small : sequence < 18446744073709551616) :
    on (complete (readFrame file offset limit sequence)) store = (.ok (frameOf sequence batch), store) :=
  on_complete_ok (read_frame held fits small)

end Reading

end Timelite.FrameLaws
