import Timelite.BatchApi

/-!
The verify mode of tools/inspect/inspect.c: a second reading of one pair, on the
bytes of the two files and without the library. Its decoders and its checksum
are those of the library, byte for byte, and are taken from there. The lines that
only describe a defect (`inspect_problem`) are left out; they never change the
prediction.
-/
namespace Timelite.Inspector
open ByteFile Codec Backend Reader Retention BatchApi

/-- `inspect_read`: short at the end of the file. -/
def inspectRead (source : Bytes) (offset length : Nat) : Bytes := readAt source offset length

/-- Feature 004 pair header. -/
def inspectPairHeader (source magic : Bytes) : Except Error Bytes :=
  let header := inspectRead source 0 32
  if header.length < 12 ∨ header.take 8 ≠ magic then .error .invalidDatabase
  else
    let version := decode32 (header.drop 8)
    if version = 0 then .error .invalidDatabase
    else if version ≠ 2 then .error .unsupportedVersion
    else if header.length < 32 then .error .invalidDatabase
    else if checksum (header.take 28) ≠ decode32 (header.drop 28) then .error .invalidDatabase
    else .ok header

section Slots

structure InspectSlot where
  present : Bool
  wellFormed : Bool
  valid : Bool
  retention : Bool
  hasTime : Bool
  revision : Nat
  dataEnd : Nat
  last : Nat
  lastTime : Nat
  tail : Nat
  root : Nat
  count : Nat
  phase : Nat
  deriving DecidableEq, Repr

def blankSlot (present : Bool) : InspectSlot :=
  ⟨present, false, false, false, false, 0, 0, 0, 0, 0, 0, 0, 0⟩

def retentionSlot (m : Bytes) (size : Nat) (slot : InspectSlot) : InspectSlot :=
  let slot := { slot with
    retention := true
    hasTime := true
    tail := decode32 (m.drop 40)
    root := decode32 (m.drop 44)
    count := decode32 (m.drop 52)
    phase := decode32 (m.drop 56) }
  if checksum (m.take 60) ≠ decode32 (m.drop 60) then slot
  else if decode32 (m.drop 48) ≠ 10 then slot
  else
    let slot := { slot with wellFormed := true }
    if slot.revision = 0 ∨ slot.phase > 3 then slot
    else if slot.root < dataStart ∨ slot.root > slot.dataEnd ∨ slot.dataEnd > size ∨ slot.dataEnd > databaseCapacity then slot
    else if slot.count > (slot.dataEnd - slot.root) / segmentMin ∨ slot.count > slot.last then slot
    else if (if slot.count ≠ 0 then ¬ (slot.tail ≥ slot.root ∧ slot.tail < slot.dataEnd)
        else ¬ (slot.tail = 0 ∧ slot.root = slot.dataEnd)) then slot
    else if (if slot.phase = 2 then slot.dataEnd - slot.root > slot.root - dataStart else slot.root ≠ dataStart) then slot
    else { slot with valid := true }

def installSlot (m : Bytes) (size : Nat) (slot : InspectSlot) : InspectSlot :=
  let marker := decode32 (m.drop 48)
  let slot := { slot with
    count := slot.revision
    tail := decode64 (m.drop 40)
    root := dataStart
    hasTime := decide (marker = 7) }
  if (m.drop 32).take 28 ≠ List.replicate 28 0 ∧
      (marker ≠ 7 ∨ (m.drop 52).take 8 ≠ List.replicate 8 0 ∨ slot.revision = 0) then slot
  else if checksum (m.take 60) ≠ decode32 (m.drop 60) then slot
  else
    let slot := { slot with wellFormed := true }
    if slot.dataEnd < dataStart ∨ slot.dataEnd > databaseCapacity ∨ slot.dataEnd > size then slot
    else if (if slot.revision = 0 then slot.dataEnd ≠ dataStart ∨ slot.last ≠ 0
        else slot.revision > (databaseCapacity - dataStart) / segmentMin ∨ slot.last < slot.revision ∨
          slot.dataEnd < dataStart + slot.revision * segmentMin) then slot
    else { slot with valid := true }

def inspectSlotParse (m : Bytes) (size : Nat) : InspectSlot :=
  if m = List.replicate 64 0 then blankSlot false
  else
    let slot := { blankSlot true with
      revision := decode64 (m.drop 8)
      dataEnd := decode64 (m.drop 16)
      last := decode64 (m.drop 24)
      lastTime := decode64 (m.drop 32) }
    if m.take 8 = retainMagic then retentionSlot m size slot
    else if m.take 8 ≠ installMagic then slot
    else installSlot m size slot

end Slots

section Segments

def inspectSegmentParse (source : Bytes) (offset limit : Nat) : Option SegmentInfo :=
  if offset > limit ∨ limit - offset < 32 then none
  else
    let header := inspectRead source offset 64
    if header.length < 32 then none
    else
      let kind : Option (Bool × Nat) :=
        if header.take 8 = spanMagic then some (true, 64)
        else if header.take 8 = unorderedMagic then some (false, 64)
        else if header.take 8 = segmentMagic then some (false, 32)
        else none
      match kind with
      | none => none
      | some (ordered, headerSize) =>
          if headerSize = 64 ∧ (limit - offset < 64 ∨ header.length < 64) then none
          else if checksum (header.take (headerSize - 4)) ≠ decode32 (header.drop (headerSize - 4)) then none
          else
            let first := decode64 (header.drop 8)
            let last := decode64 (header.drop 16)
            let body := decode32 (header.drop 24)
            if first = 0 ∨ last < first ∨ body > walCapacity - 32 ∨ body > limit - offset - headerSize then none
            else
              let frames := last - first + 1
              if frames > body / 84 ∨ body > frames * batchScratch then none
              else if headerSize = 64 then
                let minimum := decode64 (header.drop 28)
                let maximum := decode64 (header.drop 36)
                let previous := decode64 (header.drop 44)
                let skip := decode64 (header.drop 52)
                if minimum > maximum ∨ (previous ≠ 0 ∧ (previous < dataStart ∨ previous ≥ offset)) ∨
                    (skip ≠ 0 ∧ (skip < dataStart ∨ skip ≥ offset)) then none
                else some ⟨first, last, minimum, maximum, previous, skip, body, headerSize, ordered⟩
              else some ⟨first, last, 0, uint64Max, 0, 0, body, headerSize, ordered⟩

structure InspectFrame where
  length : Nat
  records : Nat
  firstTime : Nat
  lastTime : Nat
  minimum : Nat
  maximum : Nat
  ordered : Bool
  deriving DecidableEq, Repr

-- The body of the record loop of inspect_frame_parse; `start` is `i == 0`.
def InspectFrame.note (frame : InspectFrame) (start : Bool) (time : Nat) : InspectFrame where
  length := frame.length
  records := frame.records
  firstTime := if start then time else frame.firstTime
  lastTime := time
  minimum := if start then time else min frame.minimum time
  maximum := if start then time else max frame.maximum time
  ordered := if start then frame.ordered else frame.ordered && decide (frame.lastTime ≤ time)

/-- `endOfData` is a validated header whose frame ends past `limit`. -/
def inspectFrameParse (source : Bytes) (offset limit sequence : Nat) : Except Error InspectFrame :=
  if limit - offset < 32 then .error .invalidDatabase
  else
    let header := inspectRead source offset 32
    if header.length < 32 then .error .invalidDatabase
    else
      let count := decode32 (header.drop 16)
      if header.take 8 ≠ batchMagic ∨ count = 0 ∨ count > maxRecords ∨
          decode32 (header.drop 20) ≠ 32 + count * 20 ∨ decode32 (header.drop 24) ≠ 0 ∨
          checksum (header.take 28) ≠ decode32 (header.drop 28) then .error .invalidDatabase
      else if decode64 (header.drop 8) ≠ sequence then .error .invalidDatabase
      else
        let bodyLength := decode32 (header.drop 20)
        let total := bodyLength + 32
        if total > limit - offset then .error .endOfData
        else
          let rest := inspectRead source (offset + 32) (total - 32)
          if rest.length ≠ total - 32 then .error .invalidDatabase
          else
            let bytes := header ++ rest
            let commit := bytes.drop bodyLength
            if commit.take 8 ≠ commitMagic ∨ decode64 (commit.drop 8) ≠ sequence ∨ decode32 (commit.drop 16) ≠ count ∨
                decode32 (commit.drop 20) ≠ bodyLength ∨ decode32 (commit.drop 28) ≠ checksum (commit.take 28) then
              .error .invalidDatabase
            else if decode32 (commit.drop 24) ≠ checksum (bytes.take bodyLength) then .error .invalidDatabase
            else .ok ((List.range count).foldl (fun frame i => frame.note (decide (i = 0)) (frameTime bytes i))
              ⟨total, count, 0, 0, 0, 0, true⟩)

end Segments

/-- Everything verify learns, in the order in which open learns it. -/
structure InspectState where
  -- The first error that open would return, and the stage.
  predicted : Option (Error × String)
  activeSlot : Option Nat
  legacy : Bool
  retention : Bool
  hasTime : Bool
  phase : Nat
  generation : Nat
  dataEnd : Nat
  installed : Nat
  installedTime : Nat
  root : Nat
  tail : Nat
  live : Nat
  records : Nat
  firstLive : Nat
  unreadable : Nat
  timeMin : Nat
  timeMax : Nat
  haveTimes : Bool
  floorTime : Nat
  floorKnown : Bool
  floorSource : String
  stale : Bool
  walOrdered : Bool
  sequence : Nat
  walEnd : Nat
  walFrames : Nat
  walFirstSequence : Nat
  walFirstTime : Nat
  walLastTime : Nat
  deriving DecidableEq, Repr

def startState : InspectState where
  predicted := none
  activeSlot := none
  legacy := false
  retention := false
  hasTime := false
  phase := 0
  generation := 0
  dataEnd := dataStart
  installed := 0
  installedTime := 0
  root := dataStart
  tail := 0
  live := 0
  records := 0
  firstLive := 0
  unreadable := 0
  timeMin := 0
  timeMax := 0
  haveTimes := false
  floorTime := 0
  floorKnown := false
  floorSource := "none"
  stale := false
  walOrdered := false
  sequence := 0
  walEnd := 0
  walFrames := 0
  walFirstSequence := 0
  walFirstTime := 0
  walLastTime := 0

/-- The library returns its first error; keep only the first prediction. -/
def inspectPredict (state : InspectState) (error : Error) (stage : String) : InspectState :=
  if state.predicted.isNone then { state with predicted := some (error, stage) } else state

section Stages

def inspectHeaders (database wal : Bytes) (state : InspectState) : InspectState :=
  match inspectPairHeader database databaseMagic with
  | .error error => inspectPredict state error "database header"
  | .ok header =>
      match inspectPairHeader wal walMagic with
      | .error error => inspectPredict state error "wal header"
      | .ok walHeader =>
          if (header.drop 12).take 16 ≠ (walHeader.drop 12).take 16 then inspectPredict state .pairMismatch "pair identity"
          else state

/-- One turn of the slot loop: the slot after its parity, and the newest so far. -/
def inspectSlot (database : Bytes) (index : Nat) (active : Option (Nat × InspectSlot)) : Option (Nat × InspectSlot) :=
  let bytes := inspectRead database (32 + 64 * index) 64
  let slot := if bytes.length < 64 then blankSlot (decide (bytes.length > 0)) else inspectSlotParse bytes database.length
  let slot := if slot.present ∧ slot.valid ∧ slot.revision % 2 ≠ index then { slot with valid := false, wellFormed := false } else slot
  match active with
  | none => if slot.valid then some (index, slot) else none
  | some (other, best) => if slot.valid ∧ slot.revision > best.revision then some (index, slot) else some (other, best)

/-- Mirrors read_manifests. -/
def inspectManifests (database : Bytes) (state : InspectState) : InspectState :=
  let legacy := decide (database.length = 32)
  let state := { state with legacy := legacy }
  let active := if legacy then none else inspectSlot database 1 (inspectSlot database 0 none)
  match active with
  | none =>
      if legacy = false ∧ database.length > dataStart then inspectPredict state .invalidDatabase "manifests" else state
  | some (index, active) =>
      { state with
        activeSlot := some index
        generation := active.count
        dataEnd := active.dataEnd
        installed := active.last
        installedTime := active.lastTime
        hasTime := active.hasTime
        retention := active.retention
        root := active.root
        tail := active.tail
        phase := if active.retention then active.phase else 0 }

def inspectCountFrame (state : InspectState) (frame : InspectFrame) : InspectState :=
  let first := !state.haveTimes
  { state with
    records := state.records + frame.records
    haveTimes := true
    timeMin := if first then frame.minimum else min state.timeMin frame.minimum
    timeMax := if first then frame.maximum else max state.timeMax frame.maximum }

/-- Returns the sequence that it stops at. -/
def inspectFrameLoop (database : Bytes) (limit : Nat) : (fuel position sequence : Nat) → InspectState → Nat × InspectState
  | 0, _, sequence, state => (sequence, state)
  | fuel + 1, position, sequence, state =>
      if position < limit then
        match inspectFrameParse database position limit sequence with
        | .error _ => (sequence, { state with unreadable := if state.unreadable = 0 then sequence else state.unreadable })
        | .ok frame => inspectFrameLoop database limit fuel (position + frame.length) (next64 sequence)
            { inspectCountFrame state frame with
              floorTime := frame.lastTime
              floorKnown := true
              floorSource := "segment_scan" }
      else (sequence, state)

/-- Frames of one segment. The library validates these when read, so damage here
leaves open succeeding and the read failing at that batch. Returns the number of
frames read. -/
def inspectSegmentFrames (database : Bytes) (offset : Nat) (segment : SegmentInfo) (state : InspectState) : Nat × InspectState :=
  let position := offset + segment.headerSize
  let stopped := inspectFrameLoop database (position + segment.body) segment.body position segment.first state
  (sub64 stopped.1 segment.first, stopped.2)

structure InspectWalk where
  offset : Nat
  previous : Nat
  sequence : Nat
  offsets : List Nat
  damagedFinal : Bool
  segment : Option SegmentInfo
  deriving DecidableEq, Repr

-- The manifest capacity checks bound bit below 24.
def inspectLevel (n : Nat) : Nat := ((List.range 23).find? fun bit => 1 <<< bit == lowBit n).getD 23

/-- The checks of one turn of the segment loop. -/
def inspectSegmentChecks (walk : InspectWalk) (n : Nat) (segment : SegmentInfo) (state : InspectState) : InspectState :=
  let state :=
    if walk.sequence = uint64Max ∨ segment.first ≤ walk.sequence ∨
        (state.retention = false ∧ segment.first ≠ walk.sequence + 1) then
      inspectPredict state .invalidDatabase "segment sequence"
    else state
  if segment.headerSize = 64 ∧ (segment.previous ≠ walk.previous ∨ segment.skip ≠ walk.offsets.getD (inspectLevel n) 0) then
    inspectPredict state .invalidDatabase "segment links"
  else state

-- What the turn counts, with the number of frames read.
def inspectSegmentCounts (database : Bytes) (offset : Nat) (segment : SegmentInfo) (state : InspectState) : Nat × InspectState :=
  inspectSegmentFrames database offset segment
    { state with
      firstLive := if state.live = 0 then segment.first else state.firstLive
      live := state.live + (segment.last - segment.first + 1) }

-- The walk is `none` after the `break`.
def inspectSegmentLoop (database : Bytes) : (remaining n : Nat) → InspectWalk → InspectState → Option InspectWalk × InspectState
  | 0, _, walk, state => (some walk, state)
  | remaining + 1, n, walk, state =>
      match inspectSegmentParse database walk.offset state.dataEnd with
      | none => (none, inspectPredict state .invalidDatabase "segment header")
      | some segment =>
          let counts := inspectSegmentCounts database walk.offset segment (inspectSegmentChecks walk n segment state)
          inspectSegmentLoop database remaining (n + 1)
            { offset := walk.offset + segment.headerSize + segment.body
              previous := walk.offset
              sequence := segment.last
              offsets := markLevels walk.offsets (inspectLevel n) walk.offset
              damagedFinal := decide (counts.1 ≠ segment.last - segment.first + 1)
              segment := some segment } counts.2

/-- Mirrors the part of check_segments behind its loop. -/
def inspectChainEnd (walk : InspectWalk) (state : InspectState) : InspectState :=
  let state := if walk.offset ≠ state.dataEnd then inspectPredict state .invalidDatabase "segment chain end" else state
  match walk.segment with
  | none => state
  | some segment =>
      let state :=
        if walk.sequence > state.installed ∨ (state.retention = false ∧ walk.sequence ≠ state.installed) then
          inspectPredict state .invalidDatabase "installed sequence"
        else state
      let state :=
        if state.hasTime ∧ state.tail ≠ walk.previous then inspectPredict state .invalidDatabase "last segment offset" else state
      let state :=
        if state.hasTime ∧ segment.ordered ∧ state.retention = false ∧ state.installedTime ≠ segment.maximum then
          inspectPredict state .invalidDatabase "installed timestamp"
        else state
      -- Feature 006 manifests carry no timestamp.
      if state.hasTime = false ∧ walk.damagedFinal then inspectPredict state .invalidDatabase "final legacy segment scan" else state

def inspectFloor (state : InspectState) : InspectState :=
  if state.hasTime then
    { state with floorTime := state.installedTime, floorKnown := true, floorSource := "manifest" }
  else if state.generation = 0 then
    { state with floorTime := 0, floorKnown := true, floorSource := "none" }
  else state

/-- Mirrors check_segments. -/
def inspectSegments (database : Bytes) (state : InspectState) : InspectState :=
  let walked := inspectSegmentLoop database state.generation 1 ⟨state.root, 0, 0, List.replicate 24 0, false, none⟩ state
  inspectFloor
    (match walked.1 with
    | some walk => if walked.2.predicted.isNone then inspectChainEnd walk walked.2 else walked.2
    | none => walked.2)

-- One frame of the WAL; the position is `walEnd`.
def inspectWalFrame (state : InspectState) (frame : InspectFrame) : InspectState :=
  let state := { state with
    walFirstTime := if state.walFrames = 0 then frame.firstTime else state.walFirstTime
    walOrdered := (state.walOrdered && (decide (state.walFrames = 0) || decide (state.walLastTime ≤ frame.firstTime))) &&
      frame.ordered
    walLastTime := frame.lastTime }
  let state := if state.stale then state else inspectCountFrame state frame
  { state with
    walFrames := state.walFrames + 1
    walEnd := state.walEnd + frame.length
    sequence := next64 state.sequence }

def inspectWalLoop (wal : Bytes) : (fuel : Nat) → InspectState → InspectState
  | 0, state => state
  | fuel + 1, state =>
      if state.walEnd < wal.length then
        match inspectFrameParse wal state.walEnd wal.length (next64 state.sequence) with
        | .error .endOfData => if state.stale then inspectPredict state .invalidDatabase "wal frame" else state
        | .error _ => inspectPredict state .invalidDatabase "wal frame"
        | .ok frame => inspectWalLoop wal fuel (inspectWalFrame state frame)
      else state

/-- The checks of open behind its WAL loop. -/
def inspectWalEnd (database : Bytes) (state : InspectState) : InspectState :=
  let state :=
    if state.stale ∧ state.sequence ≠ state.installed then inspectPredict state .invalidDatabase "stale wal" else state
  let state :=
    if database.length > state.dataEnd ∧ state.phase = 0 ∧
        ¬ (state.retention ∧ state.generation = 0 ∧ database.length = 161) ∧ (state.stale ∨ state.sequence = state.installed) then
      inspectPredict state .invalidDatabase "orphan bytes"
    else state
  if state.stale = false ∧ state.sequence > state.installed then
    { state with
      floorTime := state.walLastTime
      floorKnown := true
      floorSource := "wal"
      firstLive := if state.live = 0 then next64 state.installed else state.firstLive }
  else state

/-- What the first header tells: a WAL that starts at or below the installed
sequence is stale. -/
def inspectWalStart (wal header : Bytes) (state : InspectState) : InspectState :=
  let first := decode64 (header.drop 8)
  let state :=
    if wal.length > 32 then
      let state := { state with walFirstSequence := first }
      if first ≠ 0 ∧ first ≤ state.installed then { state with stale := true, sequence := first - 1 } else state
    else state
  { state with walEnd := 32 }

/-- Mirrors the WAL part of open. -/
def inspectWal (database wal : Bytes) (state : InspectState) : InspectState :=
  let state := { state with sequence := state.installed, walOrdered := true }
  if wal.length < 32 ∨ wal.length > walCapacity then inspectPredict state .invalidDatabase "wal size"
  else
    let header := inspectRead wal 32 32
    let count := decode32 (header.drop 16)
    if wal.length > 32 ∧ (header.length < 32 ∨ header.take 8 ≠ batchMagic ∨ count = 0 ∨ count > maxRecords ∨
        decode32 (header.drop 20) ≠ 32 + count * 20 ∨ decode32 (header.drop 24) ≠ 0 ∨
        checksum (header.take 28) ≠ decode32 (header.drop 28)) then
      inspectPredict state .invalidDatabase "first wal frame"
    else
      let state := inspectWalLoop wal wal.length (inspectWalStart wal header state)
      if state.predicted.isNone then inspectWalEnd database state else state

end Stages

section Summary

/-- The lines of inspect_summary by their keys; a line that is not always printed
is an option. -/
structure InspectSummary where
  pendingBatches : Nat
  committedBatches : Nat
  sequenceHighWater : Nat
  firstLiveSequence : Option Nat
  records : Nat
  timestamps : Option (Nat × Nat)
  timestampFloor : Option (Nat × String)
  databaseTrailingBytes : Nat
  databaseSupersededFrontBytes : Option Nat
  walTrailingBytes : Nat
  firstUnreadableSequence : Option Nat
  recoveryManifestSlot : Option Nat
  recoveryWalTruncateTo : Option Nat
  recoveryDatabaseTruncateTo : Option Nat
  predictedCommittedBatches : Nat
  predictedInstalledBatches : Nat
  predictedPendingBatches : Nat
  predictedInstalledSegments : Nat
  predictedWalBytes : Nat
  predictedInstalledBytes : Nat
  predictedLastTimestamp : Option Nat
  deriving DecidableEq, Repr

def inspectSummary (database wal : Bytes) (state : InspectState) : InspectSummary :=
  let pending := if state.stale then 0 else sub64 state.sequence state.installed
  let trailing := database.length - state.dataEnd
  let walEnd := if state.stale then 32 else state.walEnd
  let emptyMarker := state.retention = true ∧ state.generation = 0 ∧ database.length = 161 ∧ state.phase = 0
  let dataEnd := if state.phase = 2 then dataStart + (state.dataEnd - state.root) else state.dataEnd
  { pendingBatches := pending
    committedBatches := state.live + pending
    sequenceHighWater := if state.stale then state.installed else state.sequence
    firstLiveSequence := if state.live + pending ≠ 0 then some state.firstLive else none
    records := state.records
    timestamps := if state.haveTimes then some (state.timeMin, state.timeMax) else none
    timestampFloor := if state.floorKnown then some (state.floorTime, state.floorSource) else none
    databaseTrailingBytes := if emptyMarker then 0 else trailing
    databaseSupersededFrontBytes := if state.root ≠ dataStart then some (state.root - dataStart) else none
    walTrailingBytes := wal.length - state.walEnd
    firstUnreadableSequence := if state.unreadable ≠ 0 then some state.unreadable else none
    recoveryManifestSlot := state.activeSlot
    recoveryWalTruncateTo :=
      if state.stale then some 32 else if state.walEnd < wal.length then some state.walEnd else none
    -- An empty retained database keeps one marker byte (feature 010).
    recoveryDatabaseTruncateTo :=
      if state.phase ≠ 0 then some (if dataEnd = dataStart then 161 else dataEnd) else none
    predictedCommittedBatches := state.live + pending
    predictedInstalledBatches := state.live
    predictedPendingBatches := pending
    predictedInstalledSegments := state.generation
    predictedWalBytes := walEnd
    predictedInstalledBytes := dataEnd - dataStart
    predictedLastTimestamp := if state.floorKnown then some state.floorTime else none }

def inspectStage (stage : InspectState → InspectState) (state : InspectState) : InspectState :=
  if state.predicted.isNone then stage state else state

def inspectStages (database wal : Bytes) : InspectState :=
  inspectStage (inspectWal database wal) (inspectStage (inspectSegments database) (inspectStage (inspectManifests database)
    (inspectHeaders database wal startState)))

/-- Read-only verification of one pair: `recovery.result` with its stage, or the
summary under `recovery.result=ok`. -/
def inspectVerify (database wal : Bytes) : Except (Error × String) InspectSummary :=
  let state := inspectStages database wal
  match state.predicted with
  | some prediction => .error prediction
  | none => .ok (inspectSummary database wal state)

end Summary

end Timelite.Inspector
