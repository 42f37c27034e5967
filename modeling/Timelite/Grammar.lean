import Timelite.Undisturbed

/-!
The language of WAL images. Behind the pair header open accepts the frames that
follow the installed sequence, with a cut frame at the end or not, or the frames
that end at the installed sequence. Sequence numbers count modulo 2^64, as their
encoding does.
-/
namespace Timelite.Grammar
open ByteFile Program Durable Codec CodecLaws Backend BackendLaws Layout FrameLaws HeaderWalk SlotLaws WalLaws Images
  Crashes Reader Retention BatchApi Opening System Decoding Undisturbed

/-- What may follow the frames: nothing, or a whole header of the next frame and less than that frame. -/
def CutTail (sequence : Nat) (tail : Bytes) : Prop :=
  tail = [] ∨ ∃ count, 0 < count ∧ count ≤ maxRecords ∧ Holds tail 0 (frameHeader sequence count) ∧
    tail.length < 64 + count * 20

/-- The pending batches after the installed sequence number, and a cut frame. -/
structure Pending (installed : Nat) (w : Bytes) (batches : List Batch) (tail : Bytes) : Prop where
  bytes : w = frames (installed + 1) batches ++ tail
  cut : CutTail (installed + batches.length + 1) tail

/-- Batches that are installed already, up to the last one. -/
structure Reclaimable (installed : Nat) (w : Bytes) (first : Nat) (batches : List Batch) : Prop where
  bytes : w = frames first batches
  occupied : batches ≠ []
  counted : 0 < first
  ends : first + batches.length = installed + 1

section Modulo

theorem encode_bytes_mod (width value : Nat) : encodeBytes width (value % 256 ^ width) = encodeBytes width value := by
  have back := encode_decode_bytes (encodeBytes width value)
  rwa [encode_bytes_length, decode_encode_bytes] at back

theorem encode64_mod (value : Nat) : encode64 (value % 18446744073709551616) = encode64 value :=
  encode_bytes_mod 8 value

theorem header_mod (sequence count : Nat) : frameHeader (sequence % 18446744073709551616) count = frameHeader sequence count := by
  rw [frameHeader, encode64_mod, frameHeader]

theorem frame_mod (sequence : Nat) (records : List Record) :
    frame (sequence % 18446744073709551616) records = frame sequence records := by
  have body : frameBody (sequence % 18446744073709551616) records = frameBody sequence records := by
    rw [frameBody, header_mod, frameBody]
  rw [frame, frameCommit, body, encode64_mod, frame, frameCommit]

theorem frames_congr {sequence sequence' : Nat} (same : sequence % 18446744073709551616 = sequence' % 18446744073709551616)
    (batches : List Batch) : frames sequence batches = frames sequence' batches := by
  induction batches generalizing sequence sequence' with
  | nil => rfl
  | cons batch rest ih =>
      have first : frame sequence batch.records = frame sequence' batch.records := by
        rw [← frame_mod sequence, same, frame_mod]
      rw [frames_cons, frames_cons, first, @ih (sequence + 1) (sequence' + 1) (by omega)]

theorem next64_lt (sequence : Nat) : next64 sequence < 18446744073709551616 := Nat.mod_lt _ (by omega)

end Modulo

section Reading
variable {file : File} {store : Store} {offset limit sequence : Nat}

-- The only errors of an undisturbed frame read.
theorem read_frame_error {error : Error} (ran : (on (readFrame file offset limit sequence) store).1 = .error error) :
    error = .invalidDatabase ∨ error = .endOfData ∧ ∃ header : Bytes, header.length = 32 ∧
      Holds (store.content file) offset header ∧ checkFrameHeader header = true ∧ decode64 (header.drop 8) = sequence ∧
      limit < offset + (decode32 (header.drop 20) + 32) := by
  rw [readFrame, on_require_bind] at ran
  by_cases room : 32 ≤ limit - offset
  · rw [if_pos room, on_bind, on_read_exact] at ran
    by_cases full : (readAt (store.content file) offset 32).length = 32
    · rw [if_pos full] at ran
      simp only [on_require_bind] at ran
      generalize shape : readAt (store.content file) offset 32 = header at ran full
      have front : Holds (store.content file) offset header := by rw [Holds, full, shape]
      by_cases passes : checkFrameHeader header = true ∧ decode64 (header.drop 8) = sequence
      · rw [if_pos passes] at ran
        by_cases fits : decode32 (header.drop 20) + 32 ≤ limit - offset
        · rw [if_pos fits, on_bind, on_read_exact] at ran
          split at ran
          · rename_i whole
            split at whole
            · cases whole
              rw [on_require_bind] at ran
              split at ran
              · cases ran
              · exact .inl (Except.error.inj ran).symm
            · cases whole
          · rename_i whole
            split at whole
            · cases whole
            · cases whole
              exact .inl (Except.error.inj ran).symm
        · rw [if_neg fits] at ran
          exact .inr ⟨(Except.error.inj ran).symm, header, full, front, passes.1, passes.2, by omega⟩
      · rw [if_neg passes] at ran
        exact .inl (Except.error.inj ran).symm
    · rw [if_neg full] at ran
      exact .inl (Except.error.inj ran).symm
  · rw [if_neg room] at ran
    exact .inl (Except.error.inj ran).symm

/-- A frame that the limit cuts has a whole header. -/
theorem cut_header (ran : (on (readFrame file offset limit sequence) store).1 = .error .endOfData) :
    ∃ count, 0 < count ∧ count ≤ maxRecords ∧ Holds (store.content file) offset (frameHeader sequence count) ∧
      limit < offset + (64 + count * 20) := by
  rcases read_frame_error ran with damage | ⟨_, header, full, held, passes, numbered, cut⟩
  · cases damage
  · obtain ⟨front, some, few, size⟩ := checked_header (Nat.le_of_eq full.symm) passes numbered
    have same : header = frameHeader sequence (decode32 (header.drop 16)) := by
      have taken := take_holds front (frame_header_length _ _)
      rwa [List.take_of_length_le (by omega)] at taken
    refine ⟨_, some, few, ?_, by omega⟩
    rw [← same]
    exact held

theorem read_cut {count : Nat} (some : 0 < count) (few : count ≤ maxRecords)
    (held : Holds (store.content file) offset (frameHeader sequence count)) (room : offset + 32 ≤ limit)
    (cut : limit < offset + (64 + count * 20)) :
    on (readFrame file offset limit (sequence % 18446744073709551616)) store = (.error .endOfData, store) := by
  have batch : ∃ batch : Batch, batch.records.length = count :=
    ⟨⟨List.replicate count ⟨0, 0, 0⟩, by simpa using Nat.ne_of_gt some, by simpa using few⟩, by simp⟩
  obtain ⟨batch, rfl⟩ := batch
  rw [← header_mod] at held
  exact read_frame_cut held room cut (Nat.mod_lt _ (by omega))

end Reading

section Scanning
variable {store : Store} {size fuel : Nat} {stale : Bool} {scan last : WalScan} {batches : List Batch}

-- The frames at the scan are passed one by one.
theorem scan_passes (held : Holds (store.content .wal) scan.offset (frames (scan.sequence + 1) batches))
    (fits : scan.offset + framesSize batches ≤ size) :
    ∃ scan' : WalScan, scan'.offset = scan.offset + framesSize batches ∧
      (scan.sequence < 18446744073709551616 →
        scan'.sequence = (scan.sequence + batches.length) % 18446744073709551616) ∧
      on (scanWal size stale (batches.length + fuel) scan) store = on (scanWal size stale fuel scan') store := by
  induction batches generalizing scan with
  | nil =>
      refine ⟨scan, rfl, fun small => ?_, by rw [List.length_nil, Nat.zero_add]⟩
      rw [List.length_nil, Nat.add_zero, Nat.mod_eq_of_lt small]
  | cons batch rest ih =>
      have least := batch.size_ge
      rw [frames_size_cons] at fits
      rw [frames_cons, holds_append, frame_length] at held
      obtain ⟨first, others⟩ := held
      rw [← frame_mod] at first
      have read := read_frame first (show scan.offset + batch.size ≤ size by omega) (Nat.mod_lt _ (by omega))
      have others' : Holds (store.content .wal) (scan.frame (frameOf (next64 scan.sequence) batch)).offset
          (frames ((scan.frame (frameOf (next64 scan.sequence) batch)).sequence + 1) rest) := by
        have next : (scan.frame (frameOf (next64 scan.sequence) batch)).sequence = next64 scan.sequence := rfl
        have place : (scan.frame (frameOf (next64 scan.sequence) batch)).offset = scan.offset + batch.size := by
          rw [WalScan.frame, frame_of_length]
        have shift := @frames_congr (next64 scan.sequence + 1) (scan.sequence + 1 + 1) (by simp only [next64]; omega) rest
        rw [next, place, shift]
        exact others
      have place : (scan.frame (frameOf (next64 scan.sequence) batch)).offset = scan.offset + batch.size := by
        rw [WalScan.frame, frame_of_length]
      obtain ⟨scan', ends, counts, ran⟩ := ih others' (by rw [place]; omega)
      refine ⟨scan', by rw [ends, place, frames_size_cons]; omega, fun small => ?_, ?_⟩
      · have next : (scan.frame (frameOf (next64 scan.sequence) batch)).sequence = next64 scan.sequence := rfl
        rw [counts (by rw [next]; exact next64_lt _), next, next64, List.length_cons]
        omega
      · have shift : (batch :: rest).length + fuel = rest.length + fuel + 1 := by
          rw [List.length_cons]
          omega
        rw [shift, scanWal, if_pos (by omega), on_examine]
        change on (readFrame .wal scan.offset size (next64 scan.sequence)) store = _ at read
        rw [read]
        exact ran

/-- What a finished scan has passed, and why it stopped. -/
theorem scan_passed (ran : (on (scanWal size stale fuel scan) store).1 = .ok last) (enough : size ≤ scan.offset + fuel)
    (place : scan.offset ≤ size) (small : scan.sequence < 18446744073709551616) :
    ∃ batches, Holds (store.content .wal) scan.offset (frames (scan.sequence + 1) batches) ∧
      last.offset = scan.offset + framesSize batches ∧
      last.sequence = (scan.sequence + batches.length) % 18446744073709551616 ∧ last.offset ≤ size ∧
      (last.offset = size ∨ stale = false ∧ ∃ count, 0 < count ∧ count ≤ maxRecords ∧
        Holds (store.content .wal) last.offset (frameHeader (scan.sequence + batches.length + 1) count) ∧
        size < last.offset + (64 + count * 20)) := by
  induction fuel generalizing scan with
  | zero =>
      cases ran
      exact ⟨[], holds_nil _ _, rfl, (Nat.mod_eq_of_lt small).symm, place, .inl (by omega)⟩
  | succ fuel ih =>
      rw [scanWal] at ran
      by_cases more : scan.offset < size
      · rw [if_pos more, on_examine] at ran
        have state := (reads_readFrame .wal scan.offset size (next64 scan.sequence)).on_state store
        cases read : (on (readFrame .wal scan.offset size (next64 scan.sequence)) store).1 with
        | error error =>
            rw [read] at ran
            rcases read_frame_error read with rfl | ⟨rfl, _⟩
            · cases ran
            · obtain ⟨count, some, few, held, cut⟩ := cut_header read
              cases stale with
              | true => cases ran
              | false =>
                  cases ran
                  refine ⟨[], holds_nil _ _, rfl, (Nat.mod_eq_of_lt small).symm, place,
                    .inr ⟨rfl, count, some, few, ?_, cut⟩⟩
                  rw [next64, header_mod] at held
                  exact held
        | ok found =>
            rw [read, state] at ran
            obtain ⟨held, fits, some, few, length, same⟩ := accepted_frame read
            have batch : ∃ batch : Batch, batch.records = frameRecords found :=
              ⟨⟨frameRecords found, List.length_pos_iff.mp (by omega), by omega⟩, rfl⟩
            obtain ⟨batch, records⟩ := batch
            rw [← records] at same length
            have size' : found.bytes.length = batch.size := by rw [same, frame_length, Batch.size]
            have least := batch.size_ge
            have offset' : (scan.frame found).offset = scan.offset + batch.size := by rw [WalScan.frame, size']
            have sequence' : (scan.frame found).sequence = next64 scan.sequence := rfl
            obtain ⟨batches, others, ends, counts, inside, stops⟩ := ih ran (by omega) (by omega)
              (by rw [sequence']; exact next64_lt _)
            rw [offset', sequence'] at others
            rw [offset'] at ends
            rw [sequence'] at counts stops
            rw [same, next64, frame_mod] at held
            refine ⟨batch :: batches, ?_, by rw [ends, frames_size_cons]; omega, ?_, inside, ?_⟩
            · rw [frames_cons, holds_append, frame_length]
              refine ⟨held, ?_⟩
              rw [@frames_congr (scan.sequence + 1 + 1) (next64 scan.sequence + 1) (by simp only [next64]; omega)]
              exact others
            · rw [counts, next64, List.length_cons]
              omega
            · refine stops.imp_right ?_
              rintro ⟨live, count, some, few, header, cut⟩
              refine ⟨live, count, some, few, ?_, cut⟩
              rw [← header_mod] at header ⊢
              have same' : (scan.sequence + (batch :: batches).length + 1) % 18446744073709551616 =
                  (next64 scan.sequence + batches.length + 1) % 18446744073709551616 := by
                rw [next64, List.length_cons]
                omega
              rw [same']
              exact header
      · rw [if_neg more] at ran
        cases ran
        exact ⟨[], holds_nil _ _, rfl, (Nat.mod_eq_of_lt small).symm, place, .inl (by omega)⟩

theorem scan_error {error : Error} (ran : (on (scanWal size stale fuel scan) store).1 = .error error) :
    error = .invalidDatabase := by
  induction fuel generalizing scan with
  | zero => cases ran
  | succ fuel ih =>
      rw [scanWal] at ran
      by_cases more : scan.offset < size
      · rw [if_pos more, on_examine, (reads_readFrame .wal scan.offset size (next64 scan.sequence)).on_state store] at ran
        cases read : (on (readFrame .wal scan.offset size (next64 scan.sequence)) store).1 with
        | error other =>
            rw [read] at ran
            rcases read_frame_error read with rfl | ⟨rfl, _⟩
            · exact (Except.error.inj ran).symm
            · cases stale with
              | true => exact (Except.error.inj ran).symm
              | false => cases ran
        | ok found =>
            rw [read] at ran
            exact ih ran
      · rw [if_neg more] at ran
        cases ran

theorem stale_counted {installed sequence count : Nat} (more : 32 < size) (occupied : 0 < count) (few : count ≤ maxRecords)
    (held : Holds (store.content .wal) 32 (frameHeader sequence count)) :
    on (staleSequence installed size) store =
      (.ok (if sequence % 18446744073709551616 ≠ 0 ∧ sequence % 18446744073709551616 ≤ installed then
        some (sequence % 18446744073709551616 - 1) else none), store) := by
  have batch : ∃ batch : Batch, batch.records.length = count :=
    ⟨⟨List.replicate count ⟨0, 0, 0⟩, by simpa using Nat.ne_of_gt occupied, by simpa using few⟩, by simp⟩
  obtain ⟨batch, rfl⟩ := batch
  rw [← header_mod] at held
  exact stale_header more held (Nat.mod_lt _ (by omega))

-- The first frame of a leftover is at or below the installed sequence.
theorem stale_some {installed before : Nat} (ran : (on (staleSequence installed size) store).1 = .ok (some before)) :
    before < installed := by
  rw [staleSequence] at ran
  by_cases more : size > 32
  · rw [if_pos more, on_bind, on_read_exact] at ran
    split at ran
    · rename_i whole
      split at whole
      · cases whole
        rw [on_require_bind] at ran
        split at ran
        · have shape := Except.ok.inj ran
          split at shape
          · rename_i first
            have before' := Option.some.inj shape
            omega
          · cases shape
        · cases ran
      · cases whole
    · cases ran
  · rw [if_neg more] at ran
    cases ran

theorem stale_error {installed : Nat} {error : Error} (ran : (on (staleSequence installed size) store).1 = .error error) :
    error = .invalidDatabase := by
  rw [staleSequence] at ran
  by_cases more : size > 32
  · rw [if_pos more, on_bind, on_read_exact] at ran
    split at ran
    · rename_i whole
      split at whole
      · cases whole
        rw [on_require_bind] at ran
        split at ran
        · cases ran
        · exact (Except.error.inj ran).symm
      · cases whole
    · rename_i whole
      split at whole
      · cases whole
      · cases whole
        exact (Except.error.inj ran).symm
  · rw [if_neg more] at ran
    cases ran

end Scanning

section Images
variable {store : Store} {db : Batches} {identity w tail : Bytes} {m : Manifests} {checked : Checked} {first : Nat}
  {batches : List Batch} {mode : OpenMode} {scratchSize : Nat}

/-- A WAL image after its pair header. -/
structure WalSide (store : Store) (identity w : Bytes) : Prop where
  bytes : store.content .wal = encodePair walMagic identity ++ w
  fits : (store.content .wal).length ≤ walCapacity

theorem WalSide.length (side : WalSide store identity w) (wide : identity.length = 16) :
    (store.content .wal).length = 32 + w.length := by
  rw [side.bytes, List.length_append, wal_length wide]

theorem WalSide.pair (side : WalSide store identity w) :
    Holds (store.content .wal) 0 (encodePair walMagic identity) := holds_prefix _ _ _ side.bytes

theorem WalSide.holds (side : WalSide store identity w) (wide : identity.length = 16) {offset : Nat} {bytes : Bytes} :
    Holds (store.content .wal) (32 + offset) bytes ↔ Holds w offset bytes := by
  simp only [holds_iff, side.bytes]
  refine forall_congr' fun i => imp_congr_right fun _ => ?_
  rw [List.getElem?_append_right (by rw [wal_length wide]; omega), wal_length wide]
  have shift : 32 + offset + i - 32 = offset + i := by omega
  rw [shift]

theorem WalSide.starts (side : WalSide store identity w) (wide : identity.length = 16) {bytes : Bytes} :
    Holds (store.content .wal) 32 bytes ↔ Holds w 0 bytes := by
  have moved := @WalSide.holds store identity w side wide 0 bytes
  rwa [Nat.add_zero] at moved

theorem pending_header {installed : Nat} (pending : Pending installed w batches tail) (some : w ≠ []) :
    ∃ count, 0 < count ∧ count ≤ maxRecords ∧ Holds w 0 (frameHeader (installed + 1) count) := by
  have bytes := pending.bytes
  cases batches with
  | cons batch rest =>
      refine ⟨batch.records.length, batch.length_pos, batch.length_le, ?_⟩
      rw [frames_cons, List.append_assoc] at bytes
      rw [bytes]
      exact (frame_header (installed + 1) batch.records).append_right _
  | nil =>
      rw [frames_nil, List.nil_append] at bytes
      rcases pending.cut with none | ⟨count, occupied, few, held, _⟩
      · exact absurd (bytes.trans none) some
      · rw [bytes]
        exact ⟨count, occupied, few, held⟩

/-- Pending batches are scanned and counted, the cut frame after them is left out. -/
theorem read_pending (side : WalSide store identity w) (wide : identity.length = 16)
    (pending : Pending m.last w batches tail) (room : m.last < uint64Max)
    (exact_ : (store.content .database).length = m.dataEnd) :
    ∃ scan : WalScan, scan.offset = 32 + framesSize batches ∧
      scan.sequence = (m.last + batches.length) % 18446744073709551616 ∧
      on (readWal m checked (store.content .database).length (store.content .wal).length) store =
        (.ok ⟨m, checked, false, scan, (store.content .wal).length⟩, store) := by
  have length := side.length wide
  have parts := congrArg List.length pending.bytes
  rw [List.length_append, frames_length] at parts
  have least := frames_size_ge batches
  simp only [uint64Max] at room
  have fresh : on (staleSequence m.last (store.content .wal).length) store = (.ok none, store) := by
    by_cases none : w = []
    · exact stale_none (by rw [length, none]; simp)
    · obtain ⟨count, some, few, held⟩ := pending_header pending none
      have lies := (side.starts wide).mpr held
      have more := held.length_le (header_ne _ _)
      rw [frame_header_length] at more
      rw [stale_counted (by omega) some few lies, if_neg (by omega)]
  have whole := holds_self w
  nth_rewrite 2 [pending.bytes] at whole
  rw [holds_append, frames_length, Nat.zero_add] at whole
  have held : Holds (store.content .wal) (startScan m.last).offset (frames ((startScan m.last).sequence + 1) batches) :=
    (side.starts wide).mpr whole.1
  obtain ⟨scan, ends, counts, passes⟩ := @scan_passes store (store.content .wal).length
    ((store.content .wal).length - batches.length) false (startScan m.last) batches held
    (by simp only [startScan]; omega)
  have enough : batches.length + ((store.content .wal).length - batches.length) = (store.content .wal).length := by omega
  have counts' := counts (by simp only [startScan]; omega)
  simp only [startScan] at ends counts'
  have stops : on (scanWal (store.content .wal).length false ((store.content .wal).length - batches.length) scan) store =
      (.ok scan, store) := by
    obtain ⟨fuel, shape⟩ : ∃ fuel, (store.content .wal).length - batches.length = fuel + 1 := ⟨_, (Nat.sub_add_cancel (by omega)).symm⟩
    rw [shape, scanWal]
    by_cases more : scan.offset < (store.content .wal).length
    · rw [if_pos more, on_examine]
      rcases pending.cut with none | ⟨count, some, few, header, cut⟩
      · rw [none] at parts
        simp only [List.length_nil] at parts
        omega
      · have lies := (side.holds wide).mpr (whole.2.within header (header_ne _ _))
        rw [Nat.add_zero, ← ends] at lies
        have more' := lies.length_le (header_ne _ _)
        rw [frame_header_length] at more'
        have read := read_cut some few lies more' (by omega)
        have same : next64 scan.sequence = (m.last + batches.length + 1) % 18446744073709551616 := by
          rw [counts', next64]
          omega
        rw [same, read]
        rfl
    · rw [if_neg more]
      rfl
  rw [enough] at passes
  have scanned : on (scanWal (store.content .wal).length (none : Option Nat).isSome (store.content .wal).length
      (startScan ((none : Option Nat).getD m.last))) store = (.ok scan, store) := passes.trans stops
  refine ⟨scan, ends, counts', ?_⟩
  unfold readWal
  rw [on_bind_ok fresh, on_bind_ok scanned, on_require_bind, if_pos (fun some => by cases some),
    on_require_bind, if_pos (fun busy => by omega)]
  rfl

/-- Leftover frames are scanned to the installed sequence. -/
theorem read_reclaimable (side : WalSide store identity w) (wide : identity.length = 16)
    (leftover : Reclaimable m.last w first batches) (room : m.last < uint64Max)
    (exact_ : (store.content .database).length = m.dataEnd) :
    ∃ scan : WalScan, scan.sequence = m.last ∧
      on (readWal m checked (store.content .database).length (store.content .wal).length) store =
        (.ok ⟨m, checked, true, scan, (store.content .wal).length⟩, store) := by
  have length := side.length wide
  have parts := congrArg List.length leftover.bytes
  rw [frames_length] at parts
  have least := frames_size_ge batches
  have counted := leftover.counted
  have ends := leftover.ends
  have occupied := List.length_pos_iff.mpr leftover.occupied
  simp only [uint64Max] at room
  have whole := holds_self w
  nth_rewrite 2 [leftover.bytes] at whole
  have stale : on (staleSequence m.last (store.content .wal).length) store = (.ok (some (first - 1)), store) := by
    obtain ⟨batch, rest, shape⟩ := List.exists_cons_of_ne_nil leftover.occupied
    have header := whole
    rw [shape, frames_cons, holds_append] at header
    have lies := (side.starts wide).mpr (header.1.within (frame_header first batch.records) (header_ne _ _))
    have more := lies.length_le (header_ne _ _)
    rw [frame_header_length] at more
    rw [stale_counted (by omega) batch.length_pos batch.length_le lies, Nat.mod_eq_of_lt (by omega), if_pos (by omega)]
  have shift : first - 1 + 1 = first := by omega
  have held : Holds (store.content .wal) (startScan (first - 1)).offset
      (frames ((startScan (first - 1)).sequence + 1) batches) := by
    simp only [startScan, shift]
    exact (side.starts wide).mpr whole
  obtain ⟨scan, last, counts, passes⟩ := @scan_passes store (store.content .wal).length
    ((store.content .wal).length - batches.length) true (startScan (first - 1)) batches held
    (by simp only [startScan]; omega)
  have enough : batches.length + ((store.content .wal).length - batches.length) = (store.content .wal).length := by omega
  have counts' := counts (by simp only [startScan]; omega)
  simp only [startScan] at last counts'
  have stops : on (scanWal (store.content .wal).length true ((store.content .wal).length - batches.length) scan) store =
      (.ok scan, store) := by
    cases (store.content .wal).length - batches.length with
    | zero => rfl
    | succ fuel =>
        rw [scanWal, if_neg (by omega)]
        rfl
  rw [enough] at passes
  have scanned : on (scanWal (store.content .wal).length (some (first - 1)).isSome (store.content .wal).length
      (startScan ((some (first - 1)).getD m.last))) store = (.ok scan, store) := passes.trans stops
  refine ⟨scan, by omega, ?_⟩
  unfold readWal
  rw [on_bind_ok stale, on_bind_ok scanned, on_require_bind, if_pos (fun _ => by omega),
    on_require_bind, if_pos (fun busy => by omega)]
  rfl

/-- A WAL that open reads is one of the two. -/
theorem read_shape (side : WalSide store identity w) (wide : identity.length = 16) (room : m.last < uint64Max)
    {v : Validated}
    (ran : (on (readWal m checked (store.content .database).length (store.content .wal).length) store).1 = .ok v) :
    (∃ batches tail, Pending m.last w batches tail) ∨ ∃ first batches, Reclaimable m.last w first batches := by
  have length := side.length wide
  have fits := side.fits
  simp only [uint64Max] at room
  simp only [walCapacity] at fits
  have dropped : ∀ {sequence : Nat} {batches : List Batch}, Holds (store.content .wal) 32 (frames sequence batches) →
      w = frames sequence batches ++ w.drop (framesSize batches) := by
    intro sequence batches held
    have front := take_holds ((side.starts wide).mp held) (frames_length sequence batches)
    nth_rewrite 1 [← List.take_append_drop (framesSize batches) w]
    rw [front]
  unfold readWal at ran
  rw [on_bind, (reads_staleSequence _ _).on_eq store] at ran
  cases found : (on (staleSequence m.last (store.content .wal).length) store).1 with
  | error error =>
      rw [found] at ran
      cases ran
  | ok stale =>
      rw [found] at ran
      simp only at ran
      rw [on_bind, (reads_scanWal _ _ _ _).on_eq store] at ran
      cases scanned : (on (scanWal (store.content .wal).length stale.isSome (store.content .wal).length
          (startScan (stale.getD m.last))) store).1 with
      | error error =>
          rw [scanned] at ran
          cases ran
      | ok scan =>
          rw [scanned] at ran
          simp only [on_require_bind] at ran
          cases stale with
          | none =>
              obtain ⟨batches, held, ends, counts, inside, stops⟩ := scan_passed scanned (by simp only [startScan]; omega)
                (by simp only [startScan]; omega) (by simp only [startScan, Option.getD_none]; omega)
              simp only [startScan, Option.getD_none] at held ends counts stops
              refine .inl ⟨batches, w.drop (framesSize batches), dropped held, ?_⟩
              have size : (w.drop (framesSize batches)).length = w.length - framesSize batches := List.length_drop
              rcases stops with whole | ⟨_, count, some, few, header, cut⟩
              · exact .inl (List.drop_eq_nil_of_le (by omega))
              · refine .inr ⟨count, some, few, ?_, by omega⟩
                rw [ends, side.holds wide] at header
                have lies := header
                rw [holds_iff] at lies ⊢
                intro i less
                rw [Nat.zero_add, List.getElem?_drop]
                exact lies i less
          | some before =>
              have low := stale_some found
              obtain ⟨batches, held, ends, counts, inside, stops⟩ := scan_passed scanned (by simp only [startScan]; omega)
                (by simp only [startScan]; omega) (by simp only [startScan, Option.getD_some]; omega)
              simp only [startScan, Option.getD_some] at held ends counts stops
              have least := frames_size_ge batches
              by_cases same : scan.sequence = m.last
              · rcases stops with whole | ⟨live, _⟩
                · refine .inr ⟨before + 1, batches, ?_, ?_, by omega, by omega⟩
                  · have shape := dropped held
                    rwa [List.drop_eq_nil_of_le (by omega), List.append_nil] at shape
                  · rintro rfl
                    simp only [List.length_nil] at counts
                    omega
                · cases live
              · rw [if_neg (by simpa using same)] at ran
                cases ran

theorem read_wal_error {error : Error}
    (ran : (on (readWal m checked (store.content .database).length (store.content .wal).length) store).1 = .error error) :
    error = .invalidDatabase := by
  unfold readWal at ran
  rw [on_bind, (reads_staleSequence _ _).on_eq store] at ran
  cases found : (on (staleSequence m.last (store.content .wal).length) store).1 with
  | error other =>
      rw [found] at ran
      rw [stale_error found] at ran
      exact (Except.error.inj ran).symm
  | ok stale =>
      rw [found] at ran
      simp only at ran
      rw [on_bind, (reads_scanWal _ _ _ _).on_eq store] at ran
      cases scanned : (on (scanWal (store.content .wal).length stale.isSome (store.content .wal).length
          (startScan (stale.getD m.last))) store).1 with
      | error other =>
          rw [scanned] at ran
          rw [scan_error scanned] at ran
          exact (Except.error.inj ran).symm
      | ok scan =>
          rw [scanned] at ran
          simp only [on_require_bind] at ran
          split at ran
          · split at ran
            · cases ran
            · exact (Except.error.inj ran).symm
          · exact (Except.error.inj ran).symm

end Images

section Cutting
variable {store : Store} {offset : Nat}

/-- Both files provisioned and the WAL cut. -/
def cutStore (store : Store) (offset size : Nat) : Store :=
  if offset < size then (((store.sync .database).sync .wal).update .wal (.truncate offset)).sync .wal
  else (store.sync .database).sync .wal

theorem cut_database (size : Nat) : (cutStore store offset size).content .database = store.content .database := by
  unfold cutStore
  split <;> simp

theorem cut_wal (inside : offset ≤ (store.content .wal).length) :
    (cutStore store offset (store.content .wal).length).content .wal = resize (store.content .wal) offset := by
  unfold cutStore
  split
  · simp [Update.apply]
  · have whole : offset = (store.content .wal).length := by omega
    rw [whole, resize_self]
    simp

-- The pending batches of a handle that open has just returned.
theorem handle_pending {store : Store} {v : Validated} {finished : Finished} {count : Nat}
    (counts : v.scan.sequence = (v.manifests.last + count) % 18446744073709551616)
    (small : count < 18446744073709551616) (top : v.manifests.last < 18446744073709551616) :
    ∃ status, (Host.call ⟨store, v.handle finished⟩ .getStatus).1 = .ok (.status status) ∧ status.pendingBatches = count := by
  refine ⟨_, rfl, ?_⟩
  change sub64 v.scan.sequence v.manifests.last = count
  rw [counts, sub64]
  omega

end Cutting

/-- Open accepts exactly the WAL images of the grammar, with their pending batches. -/
theorem wal_grammar {store : Store} {db : Batches} {identity w : Bytes} {m : Manifests} {checked : Checked}
    {mode : OpenMode} {scratchSize : Nat} (database : DatabaseSide store identity m checked)
    (idle : m.state.phase = 0) (exact_ : (store.content .database).length = m.dataEnd) (room : m.last < uint64Max)
    (wal : WalSide store identity w) (present : Present store) (closed : db.database = false ∧ db.wal = false)
    (large : batchScratch ≤ scratchSize) (old : mode ≠ .createNew) :
    (∀ batches tail, Pending m.last w batches tail → ∃ opened : Host,
      Host.call ⟨store, db⟩ (.openPair mode scratchSize) = (.ok .none, opened) ∧
        opened.store.content .database = store.content .database ∧
        opened.store.content .wal = encodePair walMagic identity ++ frames (m.last + 1) batches ∧
        opened.db.walEnd = (opened.store.content .wal).length ∧ opened.db.installed = m.last ∧
        opened.db.sequence = (m.last + batches.length) % 18446744073709551616 ∧
        ∃ status, (opened.call .getStatus).1 = .ok (.status status) ∧ status.pendingBatches = batches.length) ∧
    (∀ first batches, Reclaimable m.last w first batches → ∃ opened : Host,
      Host.call ⟨store, db⟩ (.openPair mode scratchSize) = (.ok .none, opened) ∧
        opened.store.content .database = store.content .database ∧
        opened.store.content .wal = encodePair walMagic identity ∧
        opened.db.walEnd = 32 ∧ opened.db.installed = m.last ∧ opened.db.sequence = m.last ∧
        ∃ status, (opened.call .getStatus).1 = .ok (.status status) ∧ status.pendingBatches = 0) ∧
    ((∀ batches tail, ¬ Pending m.last w batches tail) → (∀ first batches, ¬ Reclaimable m.last w first batches) →
      Host.call ⟨store, db⟩ (.openPair mode scratchSize) = (.error .invalidDatabase, ⟨store, db⟩)) := by
  have wide := database.wide
  have length := wal.length wide
  have validated := validate_sides database wal.pair wal.fits
  have opened : ∀ {v : Validated}, v.manifests = m → v.walSize = (store.content .wal).length →
      on (readWal m checked (store.content .database).length (store.content .wal).length) store = (.ok v, store) →
      Host.call ⟨store, db⟩ (.openPair mode scratchSize) = (.ok .none,
        ⟨cutStore store v.walOffset (store.content .wal).length, v.handle ⟨m.dataEnd, v.checked.tail, m.state⟩⟩) := by
    intro v same size ran
    have recovered : on recovering store = _ :=
      (on_bind_ok (validated.trans ran)).trans (recover_idle (by rw [same]; exact idle))
    rw [call_open present closed large old, recovered, same, size]
    rfl
  simp only [uint64Max] at room
  refine ⟨fun batches tail pending => ?_, fun first batches leftover => ?_, fun unpending unleft => ?_⟩
  · obtain ⟨scan, ends, counts, ran⟩ := read_pending wal wide pending room exact_
    have bytes : store.content .wal = (encodePair walMagic identity ++ frames (m.last + 1) batches) ++ tail := by
      rw [wal.bytes, pending.bytes, List.append_assoc]
    have place : scan.offset = (encodePair walMagic identity ++ frames (m.last + 1) batches).length := by
      rw [List.length_append, wal_length wide, frames_length, ends]
    have inside : scan.offset ≤ (store.content .wal).length := by
      have total := congrArg List.length bytes
      have split : ∀ front : Bytes, (front ++ tail).length = front.length + tail.length := fun _ => List.length_append
      rw [split, ← place] at total
      omega
    have cut : (cutStore store scan.offset (store.content .wal).length).content .wal =
        encodePair walMagic identity ++ frames (m.last + 1) batches := by
      rw [cut_wal inside, bytes, place, resize_append]
    have least := frames_size_ge batches
    have fits := wal.fits
    simp only [walCapacity] at fits
    have top : m.last < 18446744073709551616 := by omega
    refine ⟨_, opened rfl rfl ran, cut_database _, cut, ?_, rfl, counts, handle_pending counts (by omega) top⟩
    change scan.offset = List.length ((cutStore store scan.offset (store.content .wal).length).content .wal)
    rw [cut, place]
  · obtain ⟨scan, last, ran⟩ := read_reclaimable wal wide leftover room exact_
    have place : 32 = (encodePair walMagic identity).length := (wal_length wide).symm
    have cut : (cutStore store 32 (store.content .wal).length).content .wal = encodePair walMagic identity := by
      rw [cut_wal (by omega), wal.bytes, place, resize_append]
    have top : m.last < 18446744073709551616 := by omega
    have whole : scan.sequence = (m.last + 0) % 18446744073709551616 := by omega
    exact ⟨_, opened rfl rfl ran, cut_database _, cut, rfl, rfl, last, handle_pending whole (by omega) top⟩
  · have result := (reads_validatePair.on_eq store).symm
    rw [validated] at result
    cases ran : (on (readWal m checked (store.content .database).length (store.content .wal).length) store).1 with
    | ok v =>
        rcases read_shape wal wide (by simpa [uint64Max] using room) ran with ⟨batches, tail, pending⟩ | ⟨first, batches, leftover⟩
        · exact absurd pending (unpending batches tail)
        · exact absurd leftover (unleft first batches)
    | error error =>
        rw [ran, read_wal_error ran] at result
        have refused : on recovering store = (.error .invalidDatabase, store) :=
          on_bind_error (validated.trans result.symm)
        rw [call_open present closed large old, refused]

/-- A pair with nothing installed, and these bytes in its WAL. -/
def emptyStore (w : Bytes) : Store where
  database := some (settled (encodePair databaseMagic (List.replicate 16 7) ++ List.replicate 128 0))
  wal := some (settled (encodePair walMagic (List.replicate 16 7) ++ w))
  entropy := []

theorem empty_database (w : Bytes) :
    DatabaseSide (emptyStore w) (List.replicate 16 7) (noManifest false) ⟨0, 0, 1, 0⟩ where
  wide := rfl
  pair := holds_prefix _ _ _ rfl
  found := by
    change chosen (encodePair databaseMagic (List.replicate 16 7) ++ List.replicate 128 0) = _
    decide +kernel
  chain := rfl

def soleBatch : Batch := ⟨[⟨7, 5, -1⟩], by decide, by decide⟩

/-- One pending batch, and 40 bytes of the next. -/
theorem wal_grammar_cut : ∃ opened : Host,
    Host.call ⟨emptyStore (frames 1 [soleBatch] ++ (frame 2 soleBatch.records).take 40), batchesInit⟩
      (.openPair .openExisting batchScratch) = (.ok .none, opened) ∧ opened.db.walEnd = 116 := by
  obtain ⟨opened, ran, _, wal, ends, _⟩ := (wal_grammar (empty_database _) rfl rfl (by decide) ⟨rfl, by decide +kernel⟩ ⟨rfl, rfl⟩
    (show batchesInit.database = false ∧ batchesInit.wal = false from ⟨rfl, rfl⟩) (Nat.le_refl batchScratch)
    (show OpenMode.openExisting ≠ .createNew by decide)).1 [soleBatch] ((frame 2 soleBatch.records).take 40)
    ⟨rfl, .inr ⟨1, by decide, by decide, by unfold Holds; decide +kernel, by decide +kernel⟩⟩
  exact ⟨opened, ran, by rw [ends, wal]; decide +kernel⟩

end Timelite.Grammar
