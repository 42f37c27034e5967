import Timelite.Establishing

/-!
From accepted bytes back to what they mean. A header that open accepts is the
encoding of its fields, a tiled body is the frames of its batches, and the
segments that the header walk passes are a chain.
-/
namespace Timelite.Lifting
open ByteFile Program Codec CodecLaws Backend BackendLaws Layout FrameLaws Links SegmentLaws HeaderWalk SlotLaws Images
  Crashes Databases Relocation Decoding Grammar Reader Retention BatchApi Opaque Refusing Walking

section Headers
variable {store : Store} {file : File} {d header : Bytes} {headerSize offset limit : Nat} {ordered : Bool}
  {info : SegmentInfo}

/-- The bytes of a header. -/
def headerBytes (info : SegmentInfo) : Bytes :=
  if info.headerSize = 64 then
    encodeSegment info.first info.last info.body info.minimum info.maximum info.previous info.skip info.ordered
  else sealed (segmentMagic ++ encode64 info.first ++ encode64 info.last ++ encode32 info.body)

/-- A short header states no span, no links and no order. -/
def Plain (info : SegmentInfo) : Prop :=
  info.minimum = 0 ∧ info.maximum = uint64Max ∧ info.previous = 0 ∧ info.skip = 0 ∧ info.ordered = false

theorem exact_holds {length : Nat} {bytes : Bytes}
    (read : on (readExact file offset length) store = (.ok bytes, store)) :
    Holds (store.content file) offset bytes ∧ bytes.length = length := by
  rw [on_read_exact] at read
  have read := congrArg Prod.fst read
  simp only at read
  by_cases full : (readAt (store.content file) offset length).length = length
  · rw [if_pos full] at read
    have same := Except.ok.inj read
    have size : bytes.length = length := same ▸ full
    exact ⟨by rw [Holds, size]; exact same, size⟩
  · rw [if_neg full] at read
    cases read

-- The fields of a header are where the encoder puts them.
theorem parse_fields (parsed : parseSegment header headerSize ordered offset limit = some info) :
    checksum (header.take (headerSize - 4)) = decode32 (header.drop (headerSize - 4)) ∧
      info = ⟨decode64 (header.drop 8), decode64 (header.drop 16),
        if headerSize = 64 then decode64 (header.drop 28) else 0,
        if headerSize = 64 then decode64 (header.drop 36) else uint64Max,
        if headerSize = 64 then decode64 (header.drop 44) else 0,
        if headerSize = 64 then decode64 (header.drop 52) else 0, decode32 (header.drop 24), headerSize, ordered⟩ := by
  simp only [parseSegment] at parsed
  generalize (if headerSize = 64 then decode64 (header.drop 28) else 0) = minimum at parsed ⊢
  generalize (if headerSize = 64 then decode64 (header.drop 36) else uint64Max) = maximum at parsed ⊢
  generalize (if headerSize = 64 then decode64 (header.drop 44) else 0) = previous at parsed ⊢
  generalize (if headerSize = 64 then decode64 (header.drop 52) else 0) = skip at parsed ⊢
  generalize decode64 (header.drop 8) = first at parsed ⊢
  generalize decode64 (header.drop 16) = last at parsed ⊢
  generalize decode32 (header.drop 24) = body at parsed ⊢
  by_cases unsealed : checksum (header.take (headerSize - 4)) ≠ decode32 (header.drop (headerSize - 4))
  · rw [if_pos unsealed] at parsed
    cases parsed
  rw [if_neg unsealed] at parsed
  by_cases range : first = 0 ∨ last < first ∨ body > walCapacity - 32 ∨ body > limit - offset - headerSize
  · rw [if_pos range] at parsed
    cases parsed
  rw [if_neg range] at parsed
  by_cases count : last - first + 1 > body / 84 ∨ body > (last - first + 1) * batchScratch
  · rw [if_pos count] at parsed
    cases parsed
  rw [if_neg count] at parsed
  by_cases links : minimum > maximum ∨ (previous ≠ 0 ∧ (previous < 160 ∨ previous ≥ offset)) ∨
      (skip ≠ 0 ∧ (skip < 160 ∨ skip ≥ offset))
  · rw [if_pos links] at parsed
    cases parsed
  rw [if_neg links] at parsed
  exact ⟨not_not.mp unsealed, (Option.some.inj parsed).symm⟩

theorem whole_holds {bytes : Bytes} (held : Holds header 0 bytes) (width : header.length = bytes.length) :
    header = bytes := by
  have front := take_holds held rfl
  rwa [List.take_of_length_le (Nat.le_of_eq width)] at front

theorem wide_bytes (width : header.length = 64)
    (magic : header.take 8 = if ordered then spanMagic else unorderedMagic)
    (parsed : parseSegment header 64 ordered offset limit = some info) : header = headerBytes info := by
  obtain ⟨checks, rfl⟩ := parse_fields parsed
  have name : (if ordered then spanMagic else unorderedMagic).length = 8 := by cases ordered <;> rfl
  simp only [headerBytes, if_true]
  refine whole_holds (holds_sealed ?_ ?_ ?_) ?_
  · simp only [holds_append, List.length_append, encode64_length, encode32_length, name, Nat.zero_add]
    have front := holds_take 8 (m := header) (by omega)
    rw [magic] at front
    exact ⟨⟨⟨⟨⟨⟨⟨front, holds_field64 (by omega) rfl⟩, holds_field64 (by omega) rfl⟩, holds_field32 (by omega) rfl⟩,
      holds_field64 (by omega) rfl⟩, holds_field64 (by omega) rfl⟩, holds_field64 (by omega) rfl⟩,
      holds_field64 (by omega) rfl⟩
  · simp only [List.length_append, encode64_length, encode32_length, name, width]
    omega
  · simp only [List.length_append, encode64_length, encode32_length, name]
    exact checks
  · rw [segment_length, width]

theorem narrow_bytes (width : header.length = 32) (magic : header.take 8 = segmentMagic)
    (parsed : parseSegment header 32 false offset limit = some info) : header = headerBytes info ∧ Plain info := by
  obtain ⟨checks, rfl⟩ := parse_fields parsed
  have name : segmentMagic.length = 8 := rfl
  refine ⟨?_, rfl, rfl, rfl, rfl, rfl⟩
  simp only [headerBytes, Nat.reduceEqDiff, if_false]
  refine whole_holds (holds_sealed ?_ ?_ ?_) ?_
  · simp only [holds_append, List.length_append, encode64_length, encode32_length, name, Nat.zero_add]
    have front := holds_take 8 (m := header) (by omega)
    rw [magic] at front
    exact ⟨⟨⟨front, holds_field64 (by omega) rfl⟩, holds_field64 (by omega) rfl⟩, holds_field32 (by omega) rfl⟩
  · simp only [List.length_append, encode64_length, encode32_length, name, width]
    omega
  · simp only [List.length_append, encode64_length, encode32_length, name]
    exact checks
  · simp only [sealed_length, List.length_append, encode64_length, encode32_length, name, width]

/-- What a segment reader accepts is the encoding of what it returns. -/
theorem accepted_header (ran : (on (readSegment file offset limit) store).1 = .ok info) :
    Holds (store.content file) offset (headerBytes info) ∧ (info.headerSize = 32 → Plain info) := by
  unfold readSegment at ran
  obtain ⟨room, ran⟩ := require_ok ran
  obtain ⟨front, read, ran⟩ := bind_ok (reads_read_exact _ _ _) ran
  obtain ⟨held, length⟩ := exact_holds read
  by_cases wide : decide (front.take 8 = spanMagic) = true ∨ front.take 8 = unorderedMagic
  · simp only [wide, if_true] at ran
    obtain ⟨large, ran⟩ := require_ok ran
    obtain ⟨back, again, ran⟩ := bind_ok (reads_read_exact _ _ _) ran
    obtain ⟨held', length'⟩ := exact_holds again
    have whole : Holds (store.content file) offset (front ++ back) := by
      rw [holds_append, length]
      exact ⟨held, held'⟩
    have magic : (front ++ back).take 8 =
        if decide (front.take 8 = spanMagic) then spanMagic else unorderedMagic := by
      rw [List.take_append_of_le_length (by omega)]
      rcases wide with span | unordered
      · rw [if_pos span]
        exact of_decide_eq_true span
      · rw [unordered]
        rfl
    cases parsed : parseSegment (front ++ back) 64 (decide (front.take 8 = spanMagic)) offset limit with
    | none =>
        rw [parsed] at ran
        cases ran
    | some segment =>
        rw [parsed] at ran
        cases ran
        have bytes := wide_bytes (by rw [List.length_append]; omega) magic parsed
        have size := (parse_fields parsed).2
        refine ⟨bytes ▸ whole, fun narrow => ?_⟩
        rw [size] at narrow
        exact absurd narrow (by simp)
  · simp only [wide, if_false] at ran
    obtain ⟨narrow, ran⟩ := require_ok ran
    cases parsed : parseSegment front 32 false offset limit with
    | none =>
        rw [parsed] at ran
        cases ran
    | some segment =>
        rw [parsed] at ran
        cases ran
        obtain ⟨bytes, plain⟩ := narrow_bytes length narrow parsed
        exact ⟨bytes ▸ held, fun _ => plain⟩

theorem header_bytes (found : headerIn d offset limit = .ok info) :
    Holds d offset (headerBytes info) ∧ (info.headerSize = 32 → Plain info) := accepted_header found

end Headers

section Bodies
variable {d : Bytes} {offset limit fuel position sequence last : Nat} {info : SegmentInfo}

-- A frame read back is the frame of a batch.
theorem frame_batch {frame : Frame} (found : frameIn d position limit sequence = .ok frame) :
    ∃ batch : Batch, frame = frameOf sequence batch ∧ Holds d position (Codec.frame sequence batch.records) ∧
      position + batch.size ≤ limit := by
  obtain ⟨held, fits, some, few, length, same⟩ := accepted_frame found
  have batch : ∃ batch : Batch, batch.records = frameRecords frame :=
    ⟨⟨frameRecords frame, List.length_pos_iff.mp (by omega), by omega⟩, rfl⟩
  obtain ⟨batch, records⟩ := batch
  rw [← records] at same length
  have size : frame.bytes.length = batch.size := by rw [same, frame_length, Batch.size]
  refine ⟨batch, ?_, same ▸ held, by omega⟩
  rw [frameOf, length, ← same]

/-- A run of frames that fills its region. -/
theorem run_batches (inside : position ≤ limit) (enough : limit - position ≤ fuel) (small : sequence < 18446744073709551616)
    (whole : (frameRun d limit fuel position sequence).2 = some last) :
    ∃ batches, Holds d position (frames sequence batches) ∧ limit = position + framesSize batches ∧
      last = (sequence + batches.length) % 18446744073709551616 ∧
      (frameRun d limit fuel position sequence).1.length = batches.length := by
  induction fuel generalizing position sequence with
  | zero =>
      cases whole
      exact ⟨[], holds_nil _ _, by rw [frames_size_nil]; omega, (Nat.mod_eq_of_lt small).symm, rfl⟩
  | succ fuel ih =>
      by_cases more : position < limit
      · cases found : frameIn d position limit sequence with
        | error error =>
            rw [frame_run_error more found] at whole
            cases whole
        | ok frame =>
            obtain ⟨batch, rfl, held, fits⟩ := frame_batch found
            have least := batch.size_ge
            rw [frame_run_ok more found] at whole ⊢
            rw [frame_of_length] at whole ⊢
            obtain ⟨batches, others, tiles, counts, length⟩ := ih fits (by omega) (next64_lt sequence) whole
            refine ⟨batch :: batches, ?_, by rw [frames_size_cons]; omega, ?_, ?_⟩
            · rw [frames_cons, holds_append, frame_length]
              refine ⟨held, ?_⟩
              rw [@frames_congr (sequence + 1) (next64 sequence) (by simp only [next64]; omega)]
              exact others
            · rw [counts, next64, List.length_cons]
              omega
            · rw [List.length_cons, length, List.length_cons]
      · rw [frame_run_end more] at whole ⊢
        cases whole
        exact ⟨[], holds_nil _ _, by rw [frames_size_nil]; omega, (Nat.mod_eq_of_lt small).symm, rfl⟩

/-- A tiled body is the frames of its batches. -/
theorem tiled_batches (found : headerIn d offset limit = .ok info) (tiled : Tiled d offset info) :
    ∃ batches, Holds d (offset + info.headerSize) (frames info.first batches) ∧ framesSize batches = info.body ∧
      info.first + batches.length = info.last + 1 ∧ (bodyRun d offset info).1.length = batches.length := by
  have header := header_in found
  have order := header.order
  have top := header.top
  have counted := header.counted
  have least := header.least
  have body := header.body
  have cap : walCapacity = 67108864 := rfl
  cases run : (bodyRun d offset info).2 with
  | none =>
      rw [Tiled, run] at tiled
      cases tiled
  | some last =>
      rw [Tiled, run] at tiled
      have last' : prev64 last = info.last := Option.some.inj tiled
      obtain ⟨batches, held, tiles, counts, length⟩ := @run_batches d _ info.body _ info.first last (by omega) (by omega)
        (by omega) run
      have few := frames_size_ge batches
      have size : framesSize batches = info.body := by omega
      refine ⟨batches, held, size, ?_, length⟩
      simp only [prev64, uint64Max] at last'
      split at last' <;> omega

def kindOf (info : SegmentInfo) : Kind :=
  if info.headerSize = 32 then .legacy else if info.ordered then .span else .unordered

/-- A header with a tiled body is a segment. -/
theorem lift_segment (found : headerIn d offset limit = .ok info) (tiled : Tiled d offset info) :
    ∃ segment : Segment, segment.info info.previous info.skip = info ∧
      Holds d offset (segment.image info.previous info.skip) ∧
      (bodyRun d offset info).1.length = segment.batches.length := by
  obtain ⟨batches, held, size, counts, length⟩ := tiled_batches found tiled
  obtain ⟨bytes, narrow⟩ := header_bytes found
  have header := header_in found
  have order := header.order
  have top := header.top
  have maximum := header.maximum
  have large : uint64Max = 18446744073709551615 := rfl
  have occupied : batches ≠ [] := by
    rintro rfl
    rw [List.length_nil] at counts
    omega
  have unknown : kindOf info = .legacy → info.minimum = 0 ∧ info.maximum = uint64Max := by
    intro legacy
    by_cases short : info.headerSize = 32
    · exact ⟨(narrow short).1, (narrow short).2.1⟩
    · rw [kindOf, if_neg short] at legacy
      split at legacy <;> cases legacy
  generalize shape : (⟨kindOf info, info.first, info.minimum, info.maximum, batches, header.counted, occupied,
    by omega, by rw [size]; exact header.body, header.span, by omega, unknown⟩ : Segment) = segment
  have kind : segment.kind = kindOf info := by rw [← shape]
  have first : segment.first = info.first := by rw [← shape]
  have minimum' : segment.minimum = info.minimum := by rw [← shape]
  have maximum' : segment.maximum = info.maximum := by rw [← shape]
  have batches' : segment.batches = batches := by rw [← shape]
  have last : segment.last = info.last := by
    rw [Segment.last, first, batches']
    omega
  have body : segment.body = info.body := by rw [Segment.body, batches', size]
  have form : segment.headerSize = info.headerSize ∧ segment.ordered = info.ordered ∧
      (segment.wide = false → info.previous = 0 ∧ info.skip = 0) := by
    rcases header.size with short | long
    · obtain ⟨_, _, previous, skip, unordered⟩ := narrow short
      have legacy : segment.kind = .legacy := by rw [kind, kindOf, if_pos short]
      rw [Segment.headerSize, Segment.wide, Segment.ordered, legacy, short, unordered]
      exact ⟨rfl, rfl, fun _ => ⟨previous, skip⟩⟩
    · have wide : segment.kind = if info.ordered then .span else .unordered := by
        rw [kind, kindOf, if_neg (by omega)]
      rw [Segment.headerSize, Segment.wide, Segment.ordered, wide, long]
      cases info.ordered with
      | true => exact ⟨rfl, rfl, fun bare => by cases bare⟩
      | false => exact ⟨rfl, rfl, fun bare => by cases bare⟩
  obtain ⟨headerSize, ordered, bare⟩ := form
  refine ⟨segment, ?_, ?_, by rw [batches', length]⟩
  · have links : (if segment.wide then info.previous else 0) = info.previous ∧
        (if segment.wide then info.skip else 0) = info.skip := by
      cases wide : segment.wide with
      | true => exact ⟨rfl, rfl⟩
      | false => exact ⟨(bare wide).1.symm, (bare wide).2.symm⟩
    rw [Segment.info, first, last, minimum', maximum', body, headerSize, ordered, links.1, links.2]
  · have header' : segment.header info.previous info.skip = headerBytes info := by
      rw [Segment.header, headerBytes, first, last, minimum', maximum', body, ordered, ← headerSize]
      simp only [Segment.header_size_wide]
    rw [Segment.image, holds_append, header', batches', first]
    have size : (headerBytes info).length = info.headerSize := by rw [← header', Segment.header_length, headerSize]
    exact ⟨bytes, size ▸ held⟩

end Bodies

section Chains
variable {d : Bytes} {root limit n : Nat} {enabled : Bool} {done : List Segment} {walk last : Walk}
  {infos : List SegmentInfo}

/-- Every body from `offset` on is tiled. -/
def Tiling (d : Bytes) : (offset : Nat) → List SegmentInfo → Prop
  | _, [] => True
  | offset, info :: rest => Tiled d offset info ∧ Tiling d (offset + info.headerSize + info.body) rest

-- A narrow segment has no links.
theorem narrow_image {segment : Segment} (narrow : segment.wide = false) (previous skip previous' skip' : Nat) :
    segment.image previous skip = segment.image previous' skip' ∧
      segment.info previous skip = segment.info previous' skip' := by
  simp only [Segment.image, Segment.header, Segment.info, narrow]
  exact ⟨rfl, rfl⟩

/-- One header that the walk passes, with a tiled body, is the next segment of the chain. -/
theorem lift_step {info : SegmentInfo} (walked : Walked root done walk) (small : done.length + 1 < 16777216)
    (admits : Admits d limit enabled walk (done.length + 1) info) (tiled : Tiled d walk.offset info) :
    ∃ segment : Segment, infoAt root (done ++ [segment]) done.length segment = info ∧
      Holds d (root + extent done) (segment.image (linkTo root done done.length)
        (linkTo root done (done.length + 1 - lowBit (done.length + 1)))) := by
  obtain ⟨segment, same, held, _⟩ := lift_segment admits.found tiled
  have skip := levels_skip walked.levels small
  have position := walked.offset
  rw [position] at held
  refine ⟨segment, ?_⟩
  rw [info_at_done root done [] segment]
  cases wide : segment.wide with
  | false =>
      have bare := narrow_image wide info.previous info.skip (linkTo root done done.length)
        (linkTo root done (done.length + 1 - lowBit (done.length + 1)))
      exact ⟨bare.2.symm.trans same, bare.1 ▸ held⟩
  | true =>
      have size : info.headerSize = 64 := by
        rw [← same]
        exact segment.header_size_wide.mpr wide
      obtain ⟨previous, jump⟩ := admits.links size
      rw [walked.previous] at previous
      rw [skip] at jump
      rw [previous, jump] at same held
      exact ⟨same, held⟩

/-- The segments that the walk passes are a chain when their bodies are tiled. -/
theorem lift_chain (passed : Passed d limit enabled walk n infos last) (walked : Walked root done walk)
    (ordinal : n = done.length + 1) (above : 160 ≤ root) (inside : walk.offset ≤ limit)
    (capacity : limit ≤ databaseCapacity) (tiling : Tiling d walk.offset infos) :
    ∃ segments, segments.length = infos.length ∧ Holds d (root + extent done) (chain root done segments) ∧
      Walked root (done ++ segments) last ∧ Sequenced enabled walk.sequence segments := by
  induction passed generalizing done with
  | done walk n => exact ⟨[], rfl, holds_nil _ _, by rwa [List.append_nil], sequenced_nil _ _⟩
  | @more walk last n info infos admits rest ih =>
      subst ordinal
      have count := extent_ge done
      have position := walked.offset
      simp only [databaseCapacity] at capacity
      have small : done.length + 1 < 16777216 := by omega
      obtain ⟨segment, same, held⟩ := lift_step walked small admits tiling.1
      have walked' := walked_step walked segment small
      rw [same] at walked'
      have fits := (header_in admits.found).fits
      obtain ⟨segments, length, others, ends, sequenced⟩ := ih walked' (by simp) fits tiling.2
      rw [List.append_assoc] at ends
      refine ⟨segment :: segments, by rw [List.length_cons, length, List.length_cons], ?_, ends, ?_⟩
      · rw [chain, holds_append, Segment.image_length]
        rw [extent_append, extent_cons, extent_nil, Nat.add_zero, ← Nat.add_assoc] at others
        exact ⟨held, others⟩
      · have first : segment.first = info.first := by rw [← same]; rfl
        have final : segment.last = info.last := by rw [← same]; rfl
        rw [sequenced_cons]
        refine ⟨first ▸ admits.above, fun gapless => ?_, ?_⟩
        · rcases admits.next with retained | next
          · rw [retained] at gapless
            cases gapless
          · rw [first]
            exact next
        · rw [final]
          exact sequenced

end Chains

section Copies
variable {d : Bytes} {limit n fuel : Nat} {enabled : Bool} {walk last : Walk} {infos : List SegmentInfo} {m : Manifests}
  {copy : Copy} {segments : List Segment}

-- A copy that goes through has read every body.
theorem tiling_of_copy (passed : Passed d limit enabled walk n infos last) (enough : limit - walk.offset ≤ fuel)
    (through : (chainCopy d limit fuel walk.offset copy).2 = true) : Tiling d walk.offset infos := by
  induction passed generalizing fuel copy with
  | done walk n => trivial
  | @more walk last n info infos admits rest ih =>
      have header := header_in admits.found
      have fits := header.fits
      have some := header.size
      obtain ⟨fuel, rfl⟩ : ∃ k, fuel = k + 1 := ⟨fuel - 1, by omega⟩
      rw [chainCopy, if_pos (by omega), admits.found] at through
      by_cases tiled : Tiled d walk.offset info
      · simp only [tiled, if_true] at through
        have place : (walk.step n info).offset = walk.offset + info.headerSize + info.body := rfl
        exact ⟨tiled, ih (by rw [place]; omega) through⟩
      · simp only [tiled, if_false] at through
        cases through

/-- The copy of a chain is the same chain at its new place. -/
theorem copy_lifted (held : Holds d m.state.root (chain m.state.root [] segments))
    (whole : m.dataEnd = m.state.root + extent segments) (low : 160 ≤ m.state.root) (capacity : m.dataEnd ≤ databaseCapacity)
    (long : m.dataEnd ≤ d.length) (apart : 160 + (m.dataEnd - m.state.root) ≤ m.state.root) :
    copyBytes d m = (chain 160 [] segments, true) := by
  have chained : Chained (image d) m.state.root m.dataEnd ([] ++ segments) :=
    ⟨held, low, by rw [List.nil_append, whole], capacity⟩
  obtain ⟨after, copied, ran, _, database, reached⟩ := @copy_chain_bytes d (image d) m.dataEnd (m.dataEnd - m.state.root)
    m.state.root ⟨160, 0, 0, List.replicate 24 0⟩ (agree_refl _ _ _) long (by omega) (Nat.le_refl _) apart
  have none : Relocation.copied false 0 segments = segments := copied_none 0 segments
  obtain ⟨after', copied', runs, copying, _, database'⟩ := @copy_loop Anywhere (image d) m.dataEnd 0
    (160 + extent segments) m.state.root 160 0 (m.dataEnd - m.state.root) false [] segments [] _
    (bears_anywhere 0 _) trivial chained whole (by omega) (copying_start 160) (Nat.le_refl _)
    (Nat.zero_le _) (by rw [none]; simp) (by rw [none]; simp only [extent_nil]; omega)
  rw [none] at copying database'
  have same := runs.on_eq
  simp only [extent_nil, Nat.add_zero] at same database'
  rw [ran] at same
  change (if (copyBytes d m).2 then _ else _, after) = _ at same
  change after.content .database = writeAt d 160 (copyBytes d m).1 at database
  change (copyBytes d m).2 = true → copied.destination = 160 + (copyBytes d m).1.length at reached
  cases through : (copyBytes d m).2 with
  | false =>
      rw [through] at same
      cases same
  | true =>
      rw [through, if_pos rfl] at same
      cases same
      have length := reached through
      have place : copied.destination = 160 + extent segments := copying.destination
      have left := holds_write d 160 (copyBytes d m).1
      have right := holds_write d 160 (chain 160 [] segments)
      rw [← database] at left
      change after.content .database = writeAt d 160 (chain 160 [] segments) at database'
      rw [← database'] at right
      have bytes := left.unique right (by rw [chain_length]; omega)
      exact Prod.ext bytes through

end Copies

section Held
variable {d : Bytes} {root limit n fuel position sequence offset : Nat} {enabled : Bool} {done rest : List Segment}
  {walk last : Walk} {infos : List SegmentInfo} {info : SegmentInfo} {segment : Segment}

theorem frame_run_held {batches : List Batch} (held : Holds d position (frames sequence batches))
    (whole : limit = position + framesSize batches) (enough : framesSize batches ≤ fuel)
    (bounded : sequence + batches.length ≤ 18446744073709551616) :
    (frameRun d limit fuel position (sequence % 18446744073709551616)).2 =
      some ((sequence + batches.length) % 18446744073709551616) := by
  induction batches generalizing fuel position sequence with
  | nil => rw [frame_run_end (by simp [whole]), List.length_nil, Nat.add_zero]
  | cons batch rest ih =>
      have least := batch.size_ge
      rw [frames_size_cons] at whole enough
      rw [List.length_cons] at bounded
      obtain ⟨fuel, rfl⟩ : ∃ k, fuel = k + 1 := ⟨fuel - 1, by omega⟩
      rw [frames_cons, holds_append, frame_length] at held
      have later : Holds d (position + batch.size) (frames (sequence + 1) rest) := held.2
      have small : sequence % 18446744073709551616 = sequence := Nat.mod_eq_of_lt (by omega)
      have read : on (readFrame .database position limit sequence) (image d) = (.ok (frameOf sequence batch), image d) :=
        read_frame held.1 (by omega) (by omega)
      have found : frameIn d position limit sequence = .ok (frameOf sequence batch) := congrArg Prod.fst read
      have count : sequence + (batch :: rest).length = sequence + 1 + rest.length := by
        rw [List.length_cons]
        omega
      have step := ih later (by omega) (show framesSize rest ≤ fuel by omega) (by omega)
      rw [← next64_mod, small] at step
      rw [small, frame_run_ok (by omega) found, frame_of_length, count]
      exact step

/-- The frames of a segment tile its body. -/
theorem segment_tiled (held : Holds d (offset + segment.headerSize) (frames segment.first segment.batches))
    (previous skip : Nat) : Tiled d offset (segment.info previous skip) := by
  have small := segment.bounded
  have some := segment.length_pos
  have run := @frame_run_held d (offset + segment.headerSize + segment.body) segment.body (offset + segment.headerSize)
    segment.first segment.batches held rfl (Nat.le_refl _) small
  rw [Nat.mod_eq_of_lt (by omega)] at run
  have run' : (bodyRun d offset (segment.info previous skip)).2 = _ := run
  rw [Tiled, run', Option.map_some, prev_last]
  rfl

/-- The bodies of a chain are tiled. -/
theorem chain_tiling (passed : Passed d limit enabled walk n infos last) (walked : Walked root done walk)
    (ordinal : n = done.length + 1) (count : infos.length = rest.length) (held : Holds d root (chain root [] (done ++ rest)))
    (above : 160 ≤ root) (inside : root + extent (done ++ rest) ≤ limit) (capacity : limit ≤ databaseCapacity) :
    Tiling d walk.offset infos := by
  induction passed generalizing done rest with
  | done walk n => trivial
  | @more walk last n info infos admits later ih =>
      subst ordinal
      obtain ⟨segment, rest, rfl⟩ : ∃ segment rest', rest = segment :: rest' :=
        List.exists_cons_of_length_eq_add_one (count.symm.trans (List.length_cons (a := info)))
      have chained : Chained (image d) root limit (done ++ segment :: rest) := ⟨held, above, inside, capacity⟩
      have position := walked.offset
      have read := chained.read
      rw [info_at_done, ← info_at_done root done [] segment] at read
      have found : headerIn d walk.offset limit = .ok (infoAt root (done ++ [segment]) done.length segment) := by
        rw [position]
        exact congrArg Prod.fst read
      have same := Except.ok.inj (admits.found.symm.trans found)
      subst same
      have few := chained.count_lt
      rw [List.length_append, List.length_cons] at few
      have walked' := walked_step walked segment (by omega)
      have joined : done ++ segment :: rest = (done ++ [segment]) ++ rest := by simp
      refine ⟨?_, ih walked' (by simp) (by simpa using count) (joined ▸ held) (joined ▸ inside)⟩
      rw [position]
      exact segment_tiled chained.frames_held _ _

end Held

section Recovery
variable {store after : Store} {v : Validated} {finished : Finished}

/-- The headers behind the data start, as far as `dataEnd`. -/
structure Surveys (d : Bytes) (dataEnd last count live : Nat) (enabled : Bool) (infos : List SegmentInfo) (walk : Walk) :
    Prop where
  passed : Passed d dataEnd enabled (startWalk 160) 1 infos walk
  count : infos.length = count
  ends : walk.offset = dataEnd
  covered : walk.sequence ≤ last
  gapless : enabled = true ∨ walk.sequence = last
  live : walk.live = live

-- Headers and bodies behind `low` are read from there.
theorem headers_agree {d d' : Bytes} {offset limit : Nat} (same : Agree d d' offset limit) :
    headerIn d offset limit = headerIn d' offset limit := by
  change (on (readSegment .database offset limit) (image d)).1 = _
  rw [@read_header d' offset limit (image d) same]

theorem passed_agree {d d' : Bytes} {limit n : Nat} {enabled : Bool} {walk last : Walk} {infos : List SegmentInfo}
    (passed : Passed d limit enabled walk n infos last) (same : Agree d d' walk.offset limit) :
    Passed d' limit enabled walk n infos last := by
  induction passed with
  | done walk n => exact .done walk n
  | @more walk last n info infos admits rest ih =>
      have fits := (header_in admits.found).fits
      have place : (walk.step n info).offset = walk.offset + info.headerSize + info.body := rfl
      have found := admits.found
      rw [headers_agree same] at found
      exact .more ⟨found, admits.more, admits.above, admits.next, admits.links⟩
        (ih (same.mono (by rw [place]; omega) (Nat.le_refl _)))

/-- What recovery leaves passes the same walk; a set that was copied back is tiled, before and after. -/
theorem recovered_surveys (accepted : Accepted store v) (recovered : Recovered store v finished after) :
    ∃ infos walk, Surveys (after.content .database) finished.dataEnd v.manifests.last v.manifests.generation v.checked.live
        v.manifests.state.enabled infos walk ∧
      (v.manifests.state.phase ≠ 2 → v.manifests.state.root = 160 ∧ finished.dataEnd = v.manifests.dataEnd ∧
        Agree (store.content .database) (after.content .database) 160 v.manifests.dataEnd) ∧
      (v.manifests.state.phase = 2 → Tiling (after.content .database) 160 infos ∧ ∃ infos' walk',
        Passed (store.content .database) v.manifests.dataEnd v.manifests.state.enabled (startWalk v.manifests.state.root) 1
          infos' walk' ∧ infos'.length = v.manifests.generation ∧
        Tiling (store.content .database) v.manifests.state.root infos') := by
  obtain ⟨infos, walk, survey⟩ := surveyed (congrArg Prod.fst accepted.checked)
  have bounds := Asserting.chosen_bounds accepted.found
  by_cases copying : v.manifests.state.phase = 2
  · obtain ⟨through, ends, held, inside⟩ := recovered.copied copying
    have busy := busy_bounds accepted.found (by omega)
    have place := busy.place
    have low := busy.low
    have root := busy.root
    rw [if_pos copying] at place
    have tiling : Tiling (store.content .database) v.manifests.state.root infos :=
      tiling_of_copy survey.passed (Nat.le_refl _) through
    obtain ⟨segments, length, chained, walked, sequenced⟩ := lift_chain survey.passed (walked_start v.manifests.state.root)
      rfl low root busy.capacity tiling
    rw [extent_nil, Nat.add_zero] at chained
    rw [List.nil_append] at walked
    have whole : v.manifests.dataEnd = v.manifests.state.root + extent segments := by
      rw [← walked.offset]
      exact survey.ends.symm
    have copied := copy_lifted chained whole low busy.capacity busy.size (by omega)
    rw [copied] at ends held
    simp only [chain_length] at ends held
    have cap := busy.capacity
    have chained' : Chained after 160 finished.dataEnd ([] ++ segments) :=
      ⟨held, Nat.le_refl _, by rw [List.nil_append, ends], by omega⟩
    have sequenced' : Sequenced v.manifests.state.enabled 0 ([] ++ segments) := sequenced
    obtain ⟨walk', ran, walked'⟩ := walk_segments chained' v.manifests.state.enabled sequenced' (walked_start 160)
    rw [List.nil_append] at walked'
    obtain ⟨infos', count, passed⟩ := passed_of_walk (congrArg Prod.fst ran)
    have covered := survey.covered
    have gapless := survey.gapless
    rw [walked.sequence, ← walked'.sequence] at covered gapless
    refine ⟨infos', walk', ⟨passed, by rw [count, length, survey.count], by rw [walked'.offset, ends], covered, gapless, ?_⟩,
      fun other => absurd copying other, fun _ => ⟨?_, infos, walk, survey.passed, survey.count, tiling⟩⟩
    · rw [walked'.live, ← walked.live, survey.live]
    · refine chain_tiling passed (walked_start 160) rfl count held (Nat.le_refl _) ?_ (show finished.dataEnd ≤ _ by omega)
      rw [List.nil_append, ends]
  · have root : v.manifests.state.root = 160 := by
      rcases chosen_cases accepted.found with current | ⟨bare, _⟩ | ⟨bare, _⟩
      · have place := (selected_bounds current).place
        rwa [if_neg copying] at place
      · rw [bare]
        rfl
      · rw [bare]
        rfl
    have data : finished.dataEnd = v.manifests.dataEnd ∧
        Agree (store.content .database) (after.content .database) 160 v.manifests.dataEnd := by
      by_cases idle : v.manifests.state.phase = 0
      · obtain ⟨shape, same⟩ := recovered.idle idle
        rw [shape, same]
        exact ⟨rfl, agree_refl _ _ _⟩
      · obtain ⟨ends, _, same, _⟩ := recovered.kept idle copying
        exact ⟨ends, same⟩
    have passed := survey.passed
    have ends := survey.ends
    rw [root] at passed
    refine ⟨infos, walk, ⟨?_, survey.count, by rw [ends, data.1], survey.covered, survey.gapless, survey.live.symm⟩,
      fun _ => ⟨root, data⟩, fun still => absurd still copying⟩
    rw [data.1]
    exact passed_agree passed data.2

end Recovery

end Timelite.Lifting
