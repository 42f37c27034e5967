import Timelite.Walking
import Timelite.Refusing

/-!
Open with its arithmetic made explicit: an assertion stands before every
subtraction of offsets or lengths, every access to a link table and to the
scratch buffer, and where a loop runs out of fuel. On no pair of images does an
assertion fail.
-/
namespace Timelite.Asserting
open ByteFile Program Durable Codec CodecLaws Backend BackendLaws Layout Links FrameLaws HeaderWalk SlotLaws Images
  Databases Reader Retention BatchApi System Decoding Undisturbed Grammar Opaque Refusing Walking

/-- A failed assertion stops the program with an error that the library does not have. -/
def assertion (condition : Prop) [Decidable condition] : Io Unit := Io.require condition (.errno (.other 134))

section Readers

def assertedParse (header : Bytes) (headerSize : Nat) (ordered : Bool) (offset limit : Nat) : Io SegmentInfo := do
  let first := decode64 (header.drop 8)
  let last := decode64 (header.drop 16)
  let body := decode32 (header.drop 24)
  let wide := headerSize = 64
  let minimum := if wide then decode64 (header.drop 28) else 0
  let maximum := if wide then decode64 (header.drop 36) else uint64Max
  let previous := if wide then decode64 (header.drop 44) else 0
  let skip := if wide then decode64 (header.drop 52) else 0
  Io.require (checksum (header.take (headerSize - 4)) = decode32 (header.drop (headerSize - 4))) .invalidDatabase
  -- end - offset - header_size
  assertion (offset ≤ limit ∧ headerSize ≤ limit - offset)
  Io.require (¬ (first = 0 ∨ last < first ∨ body > walCapacity - 32 ∨ body > limit - offset - headerSize)) .invalidDatabase
  -- last - first
  assertion (first ≤ last)
  Io.require (¬ (last - first + 1 > body / 84 ∨ body > (last - first + 1) * batchScratch)) .invalidDatabase
  Io.require (¬ (minimum > maximum ∨ (previous ≠ 0 ∧ (previous < 160 ∨ previous ≥ offset)) ∨
    (skip ≠ 0 ∧ (skip < 160 ∨ skip ≥ offset)))) .invalidDatabase
  pure ⟨first, last, minimum, maximum, previous, skip, body, headerSize, ordered⟩

def assertedSegment (file : File) (offset limit : Nat) : Io SegmentInfo := do
  Io.require (offset ≤ limit ∧ 32 ≤ limit - offset) .invalidDatabase
  let front ← readExact file offset 32
  let ordered := decide (front.take 8 = spanMagic)
  if ordered ∨ front.take 8 = unorderedMagic then do
    assertion (offset ≤ limit)
    Io.require (64 ≤ limit - offset) .invalidDatabase
    let back ← readExact file (offset + 32) 32
    assertedParse (front ++ back) 64 ordered offset limit
  else do
    Io.require (front.take 8 = segmentMagic) .invalidDatabase
    assertedParse front 32 false offset limit

def assertedFrame (file : File) (offset limit sequence : Nat) : Io Frame := do
  -- end - offset
  assertion (offset ≤ limit)
  Io.require (32 ≤ limit - offset) .invalidDatabase
  let header ← readExact file offset 32
  Io.require (checkFrameHeader header = true ∧ decode64 (header.drop 8) = sequence) .invalidDatabase
  let count := decode32 (header.drop 16)
  let bodyLength := decode32 (header.drop 20)
  Io.require (bodyLength + 32 ≤ limit - offset) .endOfData
  -- The rest of the frame ends inside the scratch buffer, and so does the commit at its end.
  assertion (32 + bodyLength ≤ batchScratch)
  let rest ← readExact file (offset + 32) bodyLength
  let bytes := header ++ rest
  let commit := bytes.drop bodyLength
  Io.require (commit.take 8 = commitMagic ∧ decode64 (commit.drop 8) = sequence ∧
    decode32 (commit.drop 16) = count ∧ decode32 (commit.drop 20) = bodyLength ∧
    decode32 (commit.drop 24) = checksum (bytes.take bodyLength) ∧
    decode32 (commit.drop 28) = checksum (commit.take 28)) .invalidDatabase
  pure ⟨bytes, count⟩

/-- The time of record `i` is read inside the scratch buffer. -/
def InScratch (i : Nat) : Prop := 36 + i * 20 + 8 ≤ batchScratch

instance (i : Nat) : Decidable (InScratch i) := inferInstanceAs (Decidable (_ ≤ _))

variable {store : Store} {file : File} {offset limit sequence : Nat}

theorem on_assertion {β : Type} {condition : Prop} [Decidable condition] {next : Unit → Io β} (holds : condition) :
    on (assertion condition >>= next) store = on (next ()) store := by
  rw [assertion, on_require_bind, if_pos holds]

theorem parse_asserted {header : Bytes} {headerSize : Nat} {ordered : Bool} (inside : offset ≤ limit)
    (room : headerSize ≤ limit - offset) :
    on (assertedParse header headerSize ordered offset limit) store =
      on (match parseSegment header headerSize ordered offset limit with
        | some segment => pure segment
        | none => Io.fail .invalidDatabase) store := by
  simp only [assertedParse, parseSegment]
  generalize (if headerSize = 64 then decode64 (header.drop 28) else 0) = minimum
  generalize (if headerSize = 64 then decode64 (header.drop 36) else uint64Max) = maximum
  generalize (if headerSize = 64 then decode64 (header.drop 44) else 0) = previous
  generalize (if headerSize = 64 then decode64 (header.drop 52) else 0) = skip
  generalize decode64 (header.drop 8) = first
  generalize decode64 (header.drop 16) = last
  generalize decode32 (header.drop 24) = body
  rw [on_require_bind]
  by_cases unsealed : checksum (header.take (headerSize - 4)) = decode32 (header.drop (headerSize - 4))
  · rw [if_pos unsealed, if_neg (not_not.mpr unsealed), on_assertion ⟨inside, room⟩, on_require_bind]
    by_cases range : first = 0 ∨ last < first ∨ body > walCapacity - 32 ∨ body > limit - offset - headerSize
    · rw [if_neg (not_not.mpr range), if_pos range]
      rfl
    · rw [if_pos range, if_neg range, on_assertion (by omega), on_require_bind]
      by_cases count : last - first + 1 > body / 84 ∨ body > (last - first + 1) * batchScratch
      · rw [if_neg (not_not.mpr count), if_pos count]
        rfl
      · rw [if_pos count, if_neg count, on_require_bind]
        by_cases links : minimum > maximum ∨ (previous ≠ 0 ∧ (previous < 160 ∨ previous ≥ offset)) ∨
            (skip ≠ 0 ∧ (skip < 160 ∨ skip ≥ offset))
        · rw [if_neg (not_not.mpr links), if_pos links]
          rfl
        · rw [if_pos links, if_neg links]
  · rw [if_neg unsealed, if_pos unsealed]
    rfl

theorem same_bind {α β : Type} {first : Io α} {next next' : α → Io β}
    (rest : ∀ value after, on first store = (.ok value, after) → on (next value) after = on (next' value) after) :
    on (first >>= next) store = on (first >>= next') store := by
  rw [on_bind, on_bind]
  cases ran : on first store with
  | mk result after =>
      cases result with
      | error error => rfl
      | ok value => exact rest value after ran

theorem same_require {β : Type} {condition : Prop} [Decidable condition] {error : Error} {next next' : Unit → Io β}
    (rest : condition → on (next ()) store = on (next' ()) store) :
    on (Io.require condition error >>= next) store = on (Io.require condition error >>= next') store := by
  rw [on_require_bind, on_require_bind]
  by_cases passes : condition
  · rw [if_pos passes, if_pos passes, rest passes]
  · rw [if_neg passes, if_neg passes]

theorem segment_asserted (file : File) (offset limit : Nat) :
    on (assertedSegment file offset limit) store = on (readSegment file offset limit) store := by
  refine same_require fun room => same_bind fun front after read => ?_
  simp only
  by_cases wide : decide (front.take 8 = spanMagic) = true ∨ front.take 8 = unorderedMagic
  · rw [if_pos wide, if_pos wide, on_assertion room.1]
    exact same_require fun large => same_bind fun back last again => parse_asserted room.1 large
  · rw [if_neg wide, if_neg wide]
    exact same_require fun narrow => parse_asserted room.1 room.2

theorem frame_asserted (inside : offset ≤ limit) :
    on (assertedFrame file offset limit sequence) store = on (readFrame file offset limit sequence) store := by
  rw [assertedFrame, on_assertion inside]
  refine same_require fun room => same_bind fun header after read => same_require fun passes => same_require fun fits => ?_
  have few : 32 + decode32 (header.drop 20) ≤ batchScratch := by
    have fields := passes.1
    simp only [checkFrameHeader, decide_eq_true_eq] at fields
    have most : maxRecords = 64 := rfl
    have scratch : batchScratch = 1344 := rfl
    omega
  exact on_assertion few

theorem complete_asserted {α : Type} {reading reading' : Io α} (same : on reading store = on reading' store) :
    on (complete reading) store = on (complete reading') store := by
  rw [complete, complete, on_examine, on_examine, same]

theorem complete_read {frame : Frame} {after : Store}
    (ran : on (complete (readFrame file offset limit sequence)) store = (.ok frame, after)) :
    offset + frame.bytes.length ≤ limit ∧ 64 < frame.bytes.length ∧ frame.bytes.length ≤ batchScratch ∧
      0 < frame.records ∧ frame.records ≤ maxRecords := by
  rw [complete, on_examine] at ran
  cases read : (on (readFrame file offset limit sequence) store).1 with
  | error error =>
      rw [read] at ran
      rcases Grammar.read_frame_error read with rfl | ⟨rfl, _⟩ <;> cases ran
  | ok frame' =>
      rw [read] at ran
      cases ran
      obtain ⟨_, fits, some, few, length, same⟩ := accepted_frame read
      have most : maxRecords = 64 := rfl
      have scratch : batchScratch = 1344 := rfl
      have size := congrArg List.length same
      rw [frame_length, length] at size
      exact ⟨fits, by omega, by omega, some, few⟩

theorem in_scratch {i : Nat} (few : i < maxRecords) : InScratch i := by
  have most : maxRecords = 64 := rfl
  have scratch : batchScratch = 1344 := rfl
  rw [InScratch]
  omega

end Readers

section Validation
variable {store : Store}

/-- The two differences of `retention_manifest`, each where its operands have been compared. -/
def assertedRetention (m : Bytes) (size : Nat) : Io Unit :=
  let dataEnd := decode64 (m.drop 16)
  let root := decode32 (m.drop 44)
  let count := decode32 (m.drop 52)
  let tail := decode32 (m.drop 40)
  if m.take 8 = retainMagic ∧ checksum (m.take 60) = decode32 (m.drop 60) ∧ decode32 (m.drop 48) = 10 ∧
      decode64 (m.drop 8) ≠ 0 ∧ decode32 (m.drop 56) ≤ 3 ∧ root ≥ 160 ∧ root ≤ dataEnd ∧ dataEnd ≤ size ∧
      dataEnd ≤ databaseCapacity then do
    assertion (root ≤ dataEnd)
    assertion (count ≤ (dataEnd - root) / segmentMin ∧ count ≤ decode64 (m.drop 24) ∧
      (if count ≠ 0 then tail ≥ root ∧ tail < dataEnd else tail = 0 ∧ root = dataEnd) →
      decode32 (m.drop 56) = 2 → root ≤ dataEnd ∧ 160 ≤ root)
  else pure ()

def assertedManifests (size : Nat) : Io Manifests :=
  if size = 32 then pure (noManifest true)
  else do
    let even ← fileRead .database 32 64
    let odd ← fileRead .database 96 64
    assertedRetention even size
    assertedRetention odd size
    match chooseSlot 1 odd size (chooseSlot 0 even size none) with
    | some manifest => pure manifest
    | none =>
        Io.require (size ≤ dataStart) .invalidDatabase
        pure (noManifest false)

def assertedWalk (dataEnd : Nat) (enabled : Bool) : (remaining n : Nat) → Walk → Io Walk
  | 0, _, walk => pure walk
  | remaining + 1, n, walk => do
      let segment ← assertedSegment .database walk.offset dataEnd
      Io.require (walk.sequence ≠ uint64Max ∧ walk.sequence < segment.first ∧
        (enabled = true ∨ segment.first = walk.sequence + 1)) .invalidDatabase
      assertion (linkLevel n < 24)
      Io.require (segment.headerSize = 64 →
        segment.previous = walk.previous ∧ segment.skip = walk.offsets.getD (linkLevel n) 0)
        .invalidDatabase
      assertedWalk dataEnd enabled remaining (n + 1) (walk.step n segment)

def assertedLastTime (limit : Nat) : (fuel position sequence time : Nat) → Io Nat
  | 0, position, _, time => do
      assertion (¬ position < limit)
      pure time
  | fuel + 1, position, sequence, time =>
      if position < limit then do
        let frame ← complete (assertedFrame .database position limit sequence)
        assertion (0 < frame.records ∧ InScratch (frame.records - 1))
        assertedLastTime limit fuel (position + frame.bytes.length) (next64 sequence)
          (frameTime frame.bytes (frame.records - 1))
      else pure time

def assertedCheck (generation dataEnd last tail lastTime : Nat) (hasTime : Bool) (state : RetentionState) :
    Io Checked := do
  let walk ← assertedWalk dataEnd state.enabled generation 1 (startWalk state.root)
  Io.require (walk.offset = dataEnd ∧ walk.sequence ≤ last ∧
    (state.enabled = true ∨ walk.sequence = last) ∧ (hasTime = true → tail = walk.previous))
    .invalidDatabase
  match walk.segment with
  | none => pure ⟨walk.previous, lastTime, walk.spanStart, walk.live⟩
  | some segment =>
      if segment.ordered = true ∧ state.enabled = false then do
        Io.require (hasTime = true → lastTime = segment.maximum) .invalidDatabase
        pure ⟨walk.previous, segment.maximum, walk.spanStart, walk.live⟩
      else if hasTime = false then do
        let position := walk.previous + segment.headerSize
        let time ← assertedLastTime dataEnd (dataEnd - position) position segment.first lastTime
        pure ⟨walk.previous, time, walk.spanStart, walk.live⟩
      else pure ⟨walk.previous, lastTime, walk.spanStart, walk.live⟩

def assertedScan (size : Nat) (stale : Bool) : (fuel : Nat) → WalScan → Io WalScan
  | 0, scan => do
      assertion (¬ scan.offset < size)
      pure scan
  | fuel + 1, scan =>
      if scan.offset < size then
        (assertedFrame .wal scan.offset size (next64 scan.sequence)).examine fun
        | .error .endOfData => if stale then Io.fail .invalidDatabase else pure scan
        | .error error => Io.fail error
        | .ok frame => do
            assertion (∀ i < frame.records, InScratch i)
            assertedScan size stale fuel (scan.frame frame)
      else pure scan

def assertedValidate : Io Validated := do
  let header ← pairHeader .database databaseMagic
  let walHeader ← pairHeader .wal walMagic
  Io.require ((header.drop 12).take 16 = (walHeader.drop 12).take 16) .pairMismatch
  let databaseSize ← fileSize .database
  let m ← assertedManifests databaseSize
  let checked ← assertedCheck m.generation m.dataEnd m.last m.tail m.lastTime m.hasTime m.state
  let size ← fileSize .wal
  Io.require (32 ≤ size ∧ size ≤ walCapacity) .invalidDatabase
  let stale ← staleSequence m.last size
  let scan ← assertedScan size stale.isSome size (startScan (stale.getD m.last))
  Io.require (stale.isSome = true → scan.sequence = m.last) .invalidDatabase
  Io.require (¬ (databaseSize > m.dataEnd ∧ m.state.phase = 0 ∧
    ¬ (m.state.enabled = true ∧ m.generation = 0 ∧ databaseSize = 161) ∧
    (stale.isSome = true ∨ scan.sequence = m.last))) .invalidDatabase
  pure ⟨m, checked, stale.isSome, scan, size⟩

theorem retention_asserted {β : Type} {m : Bytes} {size : Nat} {next : Unit → Io β} :
    on (assertedRetention m size >>= next) store = on (next ()) store := by
  refine on_bind_ok ?_
  simp only [assertedRetention]
  split
  · rename_i front
    rw [on_assertion front.2.2.2.2.2.2.1, assertion, on_require,
      if_pos fun _ _ => ⟨front.2.2.2.2.2.2.1, front.2.2.2.2.2.1⟩]
  · rfl

theorem manifests_asserted (size : Nat) : on (assertedManifests size) store = on (readManifests size) store := by
  rw [assertedManifests, readManifests]
  by_cases legacy : size = 32
  · rw [if_pos legacy, if_pos legacy]
  · rw [if_neg legacy, if_neg legacy]
    refine same_bind fun even after read => same_bind fun odd last again => ?_
    exact retention_asserted.trans (retention_asserted.trans rfl)

-- A segment takes 116 bytes or more, so its ordinal is below 2^24.
theorem walk_asserted {limit remaining n : Nat} {enabled : Bool} {walk : Walk} (capacity : limit ≤ databaseCapacity)
    (filled : n * 116 + 44 ≤ walk.offset) (counted : 0 < n) :
    on (assertedWalk limit enabled remaining n walk) store = on (walkSegments limit enabled remaining n walk) store := by
  induction remaining generalizing n walk with
  | zero => rfl
  | succ remaining ih =>
      rw [assertedWalk, walkSegments, on_bind, on_bind, segment_asserted]
      cases read : (on (readSegment .database walk.offset limit) store).1 with
      | error error =>
          rw [(SegmentLaws.reads_readSegment _ _ _).on_eq store, read]
      | ok segment =>
          rw [(SegmentLaws.reads_readSegment _ _ _).on_eq store, read]
          have header := header_of read
          have size := header.size
          have fits := header.fits
          have least := header.least
          have cap : databaseCapacity = 1073741824 := rfl
          refine same_require fun order => ?_
          rw [on_assertion (level_lt (Nat.ne_of_gt counted) (by omega))]
          refine same_require fun links => ih ?_ (Nat.succ_pos n)
          change (n + 1) * 116 + 44 ≤ walk.offset + segment.headerSize + segment.body
          omega

theorem last_time_asserted {limit fuel position sequence time : Nat} (enough : limit - position ≤ fuel) :
    on (assertedLastTime limit fuel position sequence time) store =
      on (lastFrameTime limit fuel position sequence time) store := by
  induction fuel generalizing store position sequence time with
  | zero => exact on_assertion (by omega)
  | succ fuel ih =>
      rw [assertedLastTime, lastFrameTime]
      by_cases more : position < limit
      · rw [if_pos more, if_pos more, on_bind, complete_asserted (frame_asserted (Nat.le_of_lt more)), ← on_bind]
        refine same_bind fun frame after ran => ?_
        obtain ⟨fits, large, _, some, few⟩ := complete_read ran
        rw [on_assertion ⟨some, in_scratch (by omega)⟩]
        exact ih (by omega)
      · rw [if_neg more, if_neg more]

theorem check_asserted {generation dataEnd last tail lastTime : Nat} {hasTime : Bool} {state : RetentionState}
    (capacity : dataEnd ≤ databaseCapacity) (above : 160 ≤ state.root) :
    on (assertedCheck generation dataEnd last tail lastTime hasTime state) store =
      on (checkSegments generation dataEnd last tail lastTime hasTime state) store := by
  rw [assertedCheck, checkSegments, on_bind, walk_asserted capacity (by exact above) Nat.one_pos, ← on_bind]
  refine same_bind fun walk after ran => same_require fun ends => ?_
  cases walk.segment with
  | none => rfl
  | some segment =>
      simp only
      by_cases sorted : segment.ordered = true ∧ state.enabled = false
      · rw [if_pos sorted, if_pos sorted]
      · rw [if_neg sorted, if_neg sorted]
        by_cases timeless : hasTime = false
        · rw [if_pos timeless, if_pos timeless, on_bind, last_time_asserted (Nat.le_refl _), ← on_bind]
        · rw [if_neg timeless, if_neg timeless]

theorem scan_asserted {size fuel : Nat} {stale : Bool} {scan : WalScan} (enough : size - scan.offset ≤ fuel) :
    on (assertedScan size stale fuel scan) store = on (scanWal size stale fuel scan) store := by
  induction fuel generalizing store scan with
  | zero => exact on_assertion (by omega)
  | succ fuel ih =>
      rw [assertedScan, scanWal]
      by_cases more : scan.offset < size
      · rw [if_pos more, if_pos more, on_examine, on_examine, frame_asserted (Nat.le_of_lt more)]
        cases read : (on (readFrame .wal scan.offset size (next64 scan.sequence)) store).1 with
        | error error => cases error <;> rfl
        | ok frame =>
            obtain ⟨_, fits, some, few, length, same⟩ := accepted_frame read
            have bytes := congrArg List.length same
            rw [frame_length, length] at bytes
            simp only
            rw [on_assertion fun i less => in_scratch (by omega)]
            refine ih ?_
            change size - (scan.offset + frame.bytes.length) ≤ fuel
            omega
      · rw [if_neg more, if_neg more]

theorem chosen_bounds {d : Bytes} {m : Manifests} (found : chosen d = some m) :
    160 ≤ m.state.root ∧ m.state.root ≤ m.dataEnd ∧ m.dataEnd ≤ databaseCapacity := by
  rcases chosen_cases found with current | ⟨rfl, _⟩ | ⟨rfl, _⟩
  · exact ⟨(selected_bounds current).low, (selected_bounds current).root, (selected_bounds current).capacity⟩
  · decide
  · decide

theorem validate_asserted : on assertedValidate store = on validatePair store := by
  refine same_bind fun header _ _ => same_bind fun walHeader _ _ => same_require fun _ =>
    same_bind fun databaseSize after size => ?_
  cases size
  rw [on_bind, manifests_asserted, ← on_bind]
  refine same_bind fun m after read => ?_
  rw [(reads_readManifests _).on_eq] at read
  cases read' : (on (readManifests _) _).1 with
  | error error =>
      rw [read'] at read
      cases read
  | ok m' =>
      rw [read'] at read
      cases read
      have bounds := chosen_bounds (chosen_read (((reads_readManifests _).on_eq _).trans (Prod.ext read' rfl)))
      rw [on_bind, check_asserted bounds.2.2 bounds.1, ← on_bind]
      refine same_bind fun checked _ _ => same_bind fun size _ _ => same_require fun _ => same_bind fun stale _ _ => ?_
      rw [on_bind, scan_asserted (Nat.sub_le _ _), ← on_bind]

end Validation

section Recovery
variable {store : Store}

def assertedFrames (limit : Nat) : (fuel position destination sequence : Nat) → Io (Nat × Nat)
  | 0, position, destination, sequence => do
      assertion (¬ position < limit)
      pure (destination, sequence)
  | fuel + 1, position, destination, sequence =>
      if position < limit then do
        let frame ← complete (assertedFrame .database position limit sequence)
        assertion (frame.bytes.length ≤ batchScratch)
        writeExact .database destination frame.bytes
        assertedFrames limit fuel (position + frame.bytes.length)
          (destination + frame.bytes.length) (next64 sequence)
      else pure (destination, sequence)

def assertedCopy (offset : Nat) (segment : SegmentInfo) (copy : Copy) : Io Copy := do
  let bit := linkLevel (copy.count + 1)
  assertion (bit < 24)
  assertion (segment.headerSize ≤ 64)
  let header ← readExact .database offset segment.headerSize
  writeExact .database copy.destination
    (relink header segment.headerSize copy.previous (copy.offsets.getD bit 0))
  let position := offset + segment.headerSize
  let (destination, sequence) ← assertedFrames (position + segment.body) segment.body position
    (copy.destination + segment.headerSize) segment.first
  Io.require (prev64 sequence = segment.last) .invalidDatabase
  pure ⟨destination, copy.destination, copy.count + 1, markLevels copy.offsets bit copy.destination⟩

-- Recovery copies every segment.
def assertedLoop (limit : Nat) : (fuel offset : Nat) → Copy → Io Copy
  | 0, offset, copy => do
      assertion (¬ offset < limit)
      pure copy
  | fuel + 1, offset, copy =>
      if offset < limit then do
        let segment ← assertedSegment .database offset limit
        let copy ← assertedCopy offset segment copy
        assertedLoop limit fuel (offset + segment.headerSize + segment.body) copy
      else pure copy

def assertedBack (state : RetentionState) (count dataEnd last time tail : Nat) : Io Finished :=
  if state.phase = 2 then do
    let copy ← assertedLoop dataEnd (dataEnd - state.root) state.root ⟨160, 0, 0, List.replicate 24 0⟩
    fileSync .database
    let state ← publishRetention state count copy.destination last time copy.previous 160 3
    pure ⟨copy.destination, copy.previous, state⟩
  else pure ⟨dataEnd, tail, state⟩

def assertedFinish (v : Validated) : Io Finished :=
  let m := v.manifests
  if m.state.phase ≠ 0 then do
    Io.require (m.state.revision ≤ uint64Max - 2) (.errno .eoverflow)
    let front ← assertedBack m.state m.generation m.dataEnd m.last v.checked.lastTime v.checked.tail
    fileTruncate .database (if front.dataEnd = 160 then 161 else front.dataEnd)
    fileSync .database
    let state ← publishRetention front.state m.generation front.dataEnd m.last v.checked.lastTime front.tail 160 0
    pure ⟨front.dataEnd, front.tail, state⟩
  else pure ⟨m.dataEnd, v.checked.tail, m.state⟩

def assertedRecover (v : Validated) : Io Batches := do
  fileProvision .database
  fileProvision .wal
  let finished ← assertedFinish v
  if v.walOffset < v.walSize then do
    fileTruncate .wal v.walOffset
    fileSync .wal
    pure (v.handle finished)
  else pure (v.handle finished)

/-- `batchesOpen` with its assertions. -/
def assertedOpen (db : Batches) (mode : OpenMode) (scratchSize : Nat) : Op Unit :=
  if db.database = true ∨ db.wal = true then refuse db (.errno .einval)
  else if scratchSize < batchScratch then refuse db .bufferTooSmall
  else Prog.bind (acquire mode) fun
    | (.error error, owned) => failOpen db owned error
    | (.ok created, owned) =>
        Prog.bind (if created then .done (.ok (), owned) else openCompanion) fun
        | (.error error, owned) => failOpen db owned error
        | (.ok (), owned) => Prog.bind (do let v ← assertedValidate; assertedRecover v : Io Batches) fun
            | .error error => failOpen db owned error
            | .ok handle => succeed handle ()

theorem frames_asserted {limit fuel position destination sequence : Nat} (enough : limit - position ≤ fuel) :
    on (assertedFrames limit fuel position destination sequence) store =
      on (copyFrames limit fuel position destination sequence) store := by
  induction fuel generalizing store position destination sequence with
  | zero => exact on_assertion (by omega)
  | succ fuel ih =>
      rw [assertedFrames, copyFrames]
      by_cases more : position < limit
      · rw [if_pos more, if_pos more, on_bind, complete_asserted (frame_asserted (Nat.le_of_lt more)), ← on_bind]
        refine same_bind fun frame after ran => ?_
        obtain ⟨fits, large, small, _⟩ := complete_read ran
        rw [on_assertion small]
        exact same_bind fun _ last written => ih (by omega)
      · rw [if_neg more, if_neg more]

theorem copy_asserted {offset : Nat} {segment : SegmentInfo} {copy : Copy} (small : copy.count + 1 < 16777216)
    (size : segment.headerSize ≤ 64) :
    on (assertedCopy offset segment copy) store = on (copySegment offset segment copy) store := by
  unfold assertedCopy copySegment
  rw [on_assertion (level_lt (Nat.succ_ne_zero _) small), on_assertion size]
  refine same_bind fun header _ _ => same_bind fun _ _ _ => ?_
  rw [on_bind, frames_asserted (by omega), ← on_bind]

-- The segment count of a copy follows its steps.
theorem copy_counted {offset : Nat} {segment : SegmentInfo} {copy copied : Copy} {after : Store}
    (ran : on (copySegment offset segment copy) store = (.ok copied, after)) : copied.count = copy.count + 1 := by
  have every : Prog.Every (fun result : Except Error Copy => ∀ copied, result = .ok copied → copied.count = copy.count + 1)
      (copySegment offset segment copy) := by
    unfold copySegment
    refine every_bind (every_true _) fun result _ => ?_
    cases result with
    | error error => exact fun copied same => (by cases same)
    | ok header =>
        refine every_bind (every_true _) fun result _ => ?_
        cases result with
        | error error => exact fun copied same => (by cases same)
        | ok written =>
            refine every_bind (every_true _) fun result _ => ?_
            cases result with
            | error error => exact fun copied same => (by cases same)
            | ok frames =>
                obtain ⟨destination, sequence⟩ := frames
                refine every_bind (every_true _) fun result _ => ?_
                cases result with
                | error error => exact fun copied same => (by cases same)
                | ok passed =>
                    intro copied same
                    cases same
                    rfl
  have execution := exec_run device (copySegment offset segment copy) store
  rw [show Prog.run device (copySegment offset segment copy) store = _ from ran] at execution
  exact every.exec execution _ rfl copied rfl

theorem loop_asserted {limit fuel offset : Nat} {copy : Copy} (capacity : limit ≤ databaseCapacity)
    (enough : limit - offset ≤ fuel) (filled : copy.count * 116 + 160 ≤ offset) :
    on (assertedLoop limit fuel offset copy) store = on (copyLoop limit false 0 fuel offset copy) store := by
  induction fuel generalizing store offset copy with
  | zero => exact on_assertion (by omega)
  | succ fuel ih =>
      rw [assertedLoop, copyLoop]
      by_cases more : offset < limit
      · rw [if_pos more, if_pos more, on_bind, segment_asserted, ← on_bind]
        refine same_bind fun segment after read => ?_
        have header := header_of (congrArg Prod.fst read)
        have size := header.size
        have fits := header.fits
        have least := header.least
        have cap : databaseCapacity = 1073741824 := rfl
        have kept : on (copyExpires false offset segment 0) after = (.ok false, after) := rfl
        rw [on_bind_ok kept]
        have same := @copy_asserted after offset segment copy (by omega) (by omega)
        rw [on_bind, same]
        change _ = on (copySegment offset segment copy >>= fun copy =>
          copyLoop limit false 0 fuel (offset + segment.headerSize + segment.body) copy : Io Copy) after
        rw [← on_bind]
        refine same_bind fun copied last ran => ih (by omega) ?_
        rw [copy_counted ran]
        omega
      · rw [if_neg more, if_neg more]

theorem back_asserted {state : RetentionState} {count dataEnd last time tail : Nat} (capacity : dataEnd ≤ databaseCapacity)
    (above : 160 ≤ state.root) :
    on (assertedBack state count dataEnd last time tail) store = on (copyBack state count dataEnd last time tail) store := by
  unfold assertedBack copyBack copySegments
  by_cases copying : state.phase = 2
  · rw [if_pos copying, if_pos copying, on_bind, loop_asserted capacity (Nat.le_refl _) (by simp only; omega)]
    rw [on_bind (do
      let copy ← copyLoop dataEnd false 0 (dataEnd - state.root) state.root ⟨160, 0, 0, List.replicate 24 0⟩
      fileSync .database
      pure (copy.destination, copy.previous)), on_bind (copyLoop _ _ _ _ _ _)]
    cases on (copyLoop dataEnd false 0 (dataEnd - state.root) state.root ⟨160, 0, 0, List.replicate 24 0⟩) store with
    | mk result after => cases result <;> rfl
  · rw [if_neg copying, if_neg copying]

theorem finish_asserted {v : Validated} (capacity : v.manifests.dataEnd ≤ databaseCapacity)
    (above : 160 ≤ v.manifests.state.root) : on (assertedFinish v) store = on (finishPair v) store := by
  unfold assertedFinish finishPair finishRetention
  by_cases busy : v.manifests.state.phase ≠ 0
  · simp only
    rw [if_pos busy, if_pos busy]
    refine same_require fun room => ?_
    rw [on_bind, back_asserted capacity above, ← on_bind]
  · simp only
    rw [if_neg busy, if_neg busy]

theorem recover_asserted {v : Validated} (capacity : v.manifests.dataEnd ≤ databaseCapacity)
    (above : 160 ≤ v.manifests.state.root) : on (assertedRecover v) store = on (recoverPair v) store := by
  refine same_bind fun _ _ _ => same_bind fun _ _ _ => ?_
  rw [on_bind, finish_asserted capacity above, ← on_bind]

theorem recovering_asserted :
    on (do let v ← assertedValidate; assertedRecover v : Io Batches) store =
      on (do let v ← validatePair; recoverPair v : Io Batches) store := by
  rw [on_bind, validate_asserted, ← on_bind]
  refine same_bind fun v after ran => ?_
  have bounds := chosen_bounds (accepted (congrArg Prod.fst ran)).found
  exact recover_asserted bounds.2.2 bounds.1

-- Nothing else of open computes an offset.
theorem open_asserted (db : Batches) (mode : OpenMode) (scratchSize : Nat) (store : Store) :
    Prog.run device (assertedOpen db mode scratchSize) store = Prog.run device (batchesOpen db mode scratchSize) store := by
  by_cases held : db.database = true ∨ db.wal = true
  · rw [show assertedOpen db mode scratchSize = _ from if_pos held, show batchesOpen db mode scratchSize = _ from if_pos held]
  by_cases small : scratchSize < batchScratch
  · rw [show assertedOpen db mode scratchSize = _ from (if_neg held).trans (if_pos small),
      show batchesOpen db mode scratchSize = _ from (if_neg held).trans (if_pos small)]
  rw [show assertedOpen db mode scratchSize = _ from (if_neg held).trans (if_neg small),
    show batchesOpen db mode scratchSize = _ from (if_neg held).trans (if_neg small)]
  refine (run_op (acquire mode) _ store).trans (Eq.trans ?_ (run_op (acquire mode) _ store).symm)
  cases Prog.run device (acquire mode) store with
  | mk result middle =>
      obtain ⟨result, owned⟩ := result
      cases result with
      | error error => rfl
      | ok created =>
          simp only
          refine (run_op (if created then .done (.ok (), owned) else openCompanion) _ middle).trans
            (Eq.trans ?_ (run_op (if created then .done (.ok (), owned) else openCompanion) _ middle).symm)
          cases Prog.run device (if created then .done (.ok (), owned) else openCompanion) middle with
          | mk result' last =>
              obtain ⟨result', owned'⟩ := result'
              cases result' with
              | error error => rfl
              | ok ready =>
                  refine (run_op (do let v ← assertedValidate; assertedRecover v : Io Batches) _ last).trans
                    (Eq.trans ?_ (run_op (do let v ← validatePair; recoverPair v : Io Batches) _ last).symm)
                  have same := @recovering_asserted last
                  rw [on, on] at same
                  generalize Prog.run device (do let v ← assertedValidate; assertedRecover v : Io Batches) last = ran at same ⊢
                  subst same
                  rfl

end Recovery

end Timelite.Asserting
