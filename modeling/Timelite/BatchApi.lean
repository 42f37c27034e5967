import Timelite.Retention

/-!
The version 2 batch API of timelite.c over one pair of files. `Batches` is
`struct timelite_batches` without the `private_` prefix; `walEnd` is
`private_end`. Pointer arguments are Lean values, so the NULL checks have no
counterpart; the scratch buffer is only its size.
-/
namespace Timelite.BatchApi
open ByteFile Program Codec Backend Reader Retention

structure Batches where
  database : Bool
  wal : Bool
  walEnd : Nat
  sequence : Nat
  cursor : Nat
  readSequence : Nat
  dataEnd : Nat
  installed : Nat
  generation : Nat
  revision : Nat
  liveBatches : Nat
  retention : Bool
  segmentEnd : Nat
  lastTime : Nat
  installedTime : Nat
  walFirstTime : Nat
  walMinimum : Nat
  walMaximum : Nat
  lastSegment : Nat
  spanStart : Nat
  walOrdered : Bool
  inWal : Bool
  legacy : Bool
  failed : Bool
  deriving DecidableEq, Repr

def resetCursor (db : Batches) : Batches :=
  { db with cursor := dataStart, segmentEnd := dataStart, inWal := false, readSequence := 1 }

def batchesInit : Batches where
  database := false
  wal := false
  walEnd := 32
  sequence := 0
  cursor := dataStart
  readSequence := 1
  dataEnd := dataStart
  installed := 0
  generation := 0
  revision := 0
  liveBatches := 0
  retention := false
  segmentEnd := dataStart
  lastTime := 0
  installedTime := 0
  walFirstTime := 0
  walMinimum := 0
  walMaximum := 0
  lastSegment := 0
  spanStart := 1
  walOrdered := true
  inWal := false
  legacy := false
  failed := false

section Opening

inductive OpenMode where
  | openExisting
  | createNew
  | openOrCreate
  deriving DecidableEq, Repr

-- Which of the two files this call holds; `goto fail` closes exactly these.
structure Owned where
  database : Bool
  wal : Bool
  deriving DecidableEq, Repr

def createHeaders (identity : Bytes) : Io Unit := do
  writeExact .database 0
    (encodePair databaseMagic identity ++ encodeManifest 0 dataStart 0 0 0 ++ List.replicate 64 0)
  writeExact .wal 0 (encodePair walMagic identity)

/-- The branch under `if (create)`. The result says whether the pair is new. -/
def createPair (mode : OpenMode) : Prog Reply (Except Error Bool × Owned) :=
  -- Never create a replacement DB next to an orphan WAL.
  .ask (.open .wal) fun
  | .ok () => .done (.error .pairMismatch, ⟨false, true⟩)
  | .error code =>
      if code ≠ .enoent then .done (.error (.errno code), ⟨false, false⟩)
      else .ask .identity fun
      | .error code => .done (.error (.errno code), ⟨false, false⟩)
      | .ok identity => .ask (.create .database) fun
          | .error code =>
              if code = .eexist ∧ mode = .openOrCreate then
                -- One bounded attempt to validate the race winner's entire pair.
                .ask (.open .database) fun
                | .ok () => .done (.ok false, ⟨true, false⟩)
                | .error code => .done (.error (.errno code), ⟨false, false⟩)
              else .done (.error (.errno code), ⟨false, false⟩)
          | .ok () => .ask (.lock .database) fun
              | .error code => .done (.error (.errno code), ⟨true, false⟩)
              | .ok () => .ask (.create .wal) fun
                  | .error code => .done (.error (.errno code), ⟨true, false⟩)
                  | .ok () => Prog.bind (createHeaders identity) fun
                      | .error error => .done (.error error, ⟨true, true⟩)
                      | .ok () => .done (.ok true, ⟨true, true⟩)

def acquire (mode : OpenMode) : Prog Reply (Except Error Bool × Owned) :=
  if mode = .createNew then createPair mode
  else .ask (.open .database) fun
    | .ok () => .done (.ok false, ⟨true, false⟩)
    | .error code =>
        if code = .enoent ∧ mode = .openOrCreate then createPair mode
        else .done (.error (.errno code), ⟨false, false⟩)

/-- The branch under `if (!create)`: lock, validate the database, then its companion. -/
def openCompanion : Prog Reply (Except Error Unit × Owned) :=
  Prog.bind (do fileLock .database; let _ ← pairHeader .database databaseMagic : Io Unit) fun
  | .error error => .done (.error error, ⟨true, false⟩)
  | .ok () => .ask (.open .wal) fun
      | .error code => .done (.error (.errno code), ⟨true, false⟩)
      | .ok () => .done (.ok (), ⟨true, true⟩)

def release (owned : Owned) : Prog Reply Unit :=
  let database : Prog Reply Unit :=
    if owned.database then .ask (.close .database) fun _ => .done () else .done ()
  if owned.wal then .ask (.close .wal) fun _ => database else database

-- A first frame at or below the installed sequence is a stale WAL.
def staleSequence (installed size : Nat) : Io (Option Nat) :=
  if size > 32 then do
    let header ← readExact .wal 32 32
    Io.require (checkFrameHeader header = true) .invalidDatabase
    let first := decode64 (header.drop 8)
    pure (if first ≠ 0 ∧ first ≤ installed then some (first - 1) else none)
  else pure none

structure WalScan where
  offset : Nat
  sequence : Nat
  first : Nat
  minimum : Nat
  maximum : Nat
  last : Nat
  ordered : Bool
  deriving DecidableEq, Repr

def startScan (sequence : Nat) : WalScan := ⟨32, sequence, 0, 0, 0, 0, true⟩

-- The body of the record loop of open; `start` is `offset == 32 && i == 0`.
def WalScan.note (scan : WalScan) (start : Bool) (time : Nat) : WalScan where
  offset := scan.offset
  sequence := scan.sequence
  first := if start then time else scan.first
  minimum := if start then time else min scan.minimum time
  maximum := if start then time else max scan.maximum time
  last := time
  ordered := if start then scan.ordered else scan.ordered && decide (scan.last ≤ time)

def WalScan.frame (scan : WalScan) (frame : Frame) : WalScan :=
  let noted := (List.range frame.records).foldl
    (fun acc i => acc.note (decide (scan.offset = 32 ∧ i = 0)) (frameTime frame.bytes i)) scan
  { noted with
    offset := scan.offset + frame.bytes.length
    sequence := next64 scan.sequence }

def scanWal (size : Nat) (stale : Bool) : (fuel : Nat) → WalScan → Io WalScan
  | 0, scan => pure scan
  | fuel + 1, scan =>
      if scan.offset < size then
        (readFrame .wal scan.offset size (next64 scan.sequence)).examine fun
        | .error .endOfData => if stale then Io.fail .invalidDatabase else pure scan
        | .error error => Io.fail error
        | .ok frame => scanWal size stale fuel (scan.frame frame)
      else pure scan

-- Everything open validates before its first effect on an acquired pair.
structure Validated where
  manifests : Manifests
  checked : Checked
  stale : Bool
  scan : WalScan
  walSize : Nat
  deriving DecidableEq, Repr

def validatePair : Io Validated := do
  let header ← pairHeader .database databaseMagic
  let walHeader ← pairHeader .wal walMagic
  Io.require ((header.drop 12).take 16 = (walHeader.drop 12).take 16) .pairMismatch
  let databaseSize ← fileSize .database
  let m ← readManifests databaseSize
  let checked ← checkSegments m.generation m.dataEnd m.last m.tail m.lastTime m.hasTime m.state
  let size ← fileSize .wal
  Io.require (32 ≤ size ∧ size ≤ walCapacity) .invalidDatabase
  let stale ← staleSequence m.last size
  let scan ← scanWal size stale.isSome size (startScan (stale.getD m.last))
  Io.require (stale.isSome = true → scan.sequence = m.last) .invalidDatabase
  -- Bytes beyond data_end come only from an interrupted install, whose frames
  -- are still in the WAL. Otherwise the newest manifest was lost: fail closed.
  Io.require (¬ (databaseSize > m.dataEnd ∧ m.state.phase = 0 ∧
    ¬ (m.state.enabled = true ∧ m.generation = 0 ∧ databaseSize = 161) ∧
    (stale.isSome = true ∨ scan.sequence = m.last))) .invalidDatabase
  pure ⟨m, checked, stale.isSome, scan, size⟩

def Validated.walOffset (v : Validated) : Nat := if v.stale then 32 else v.scan.offset

def Validated.handle (v : Validated) (finished : Finished) : Batches :=
  resetCursor
    { database := true
      wal := true
      walEnd := v.walOffset
      sequence := v.scan.sequence
      cursor := dataStart
      readSequence := 1
      dataEnd := finished.dataEnd
      installed := v.manifests.last
      generation := v.manifests.generation
      revision := finished.state.revision
      liveBatches := v.checked.live
      retention := finished.state.enabled
      segmentEnd := dataStart
      lastTime :=
        if v.stale = false ∧ v.scan.sequence > v.manifests.last then v.scan.last
        else v.checked.lastTime
      installedTime := v.checked.lastTime
      walFirstTime := v.scan.first
      walMinimum := v.scan.minimum
      walMaximum := v.scan.maximum
      lastSegment := finished.tail
      spanStart := v.checked.spanStart
      walOrdered := if v.stale then true else v.scan.ordered
      inWal := false
      legacy := v.manifests.legacy
      failed := false }

def finishPair (v : Validated) : Io Finished :=
  let m := v.manifests
  if m.state.phase ≠ 0 then
    finishRetention m.state m.generation m.dataEnd m.last v.checked.lastTime v.checked.tail
  else pure ⟨m.dataEnd, v.checked.tail, m.state⟩

/-- Re-provision on every open, finish an interrupted retention, cut the WAL. -/
def recoverPair (v : Validated) : Io Batches := do
  fileProvision .database
  fileProvision .wal
  let finished ← finishPair v
  if v.walOffset < v.walSize then do
    fileTruncate .wal v.walOffset
    fileSync .wal
    pure (v.handle finished)
  else pure (v.handle finished)

-- A call on a handle: the error or output, and the handle it leaves.
def Op (α : Type) : Type := Prog Reply (Except Error α × Batches)

def refuse {α : Type} (db : Batches) (error : Error) : Op α := .done (.error error, db)

def succeed {α : Type} (db : Batches) (value : α) : Op α := .done (.ok value, db)

def attempt {α β : Type} (db : Batches) (step : Io α) (next : α → Op β) : Op β :=
  Prog.bind step fun
  | .error error => refuse db error
  | .ok value => next value

def failOpen (db : Batches) (owned : Owned) (error : Error) : Op Unit :=
  Prog.bind (release owned) fun _ => refuse db error

def batchesOpen (db : Batches) (mode : OpenMode) (scratchSize : Nat) : Op Unit :=
  if db.database = true ∨ db.wal = true then refuse db (.errno .einval)
  else if scratchSize < batchScratch then refuse db .bufferTooSmall
  else Prog.bind (acquire mode) fun
    | (.error error, owned) => failOpen db owned error
    | (.ok created, owned) =>
        Prog.bind (if created then .done (.ok (), owned) else openCompanion) fun
        | (.error error, owned) => failOpen db owned error
        | (.ok (), owned) => Prog.bind (do let v ← validatePair; recoverPair v : Io Batches) fun
            | .error error => failOpen db owned error
            | .ok handle => succeed handle ()

/-- Consumes both resources even if one close fails; returns the first error. -/
def batchesClose (db : Batches) : Op Unit :=
  if db.database = false ∧ db.wal = false then refuse db (.errno .ebadf)
  else
    let closeDatabase (error : Except Error Unit) : Op Unit :=
      if db.database then .ask (.close .database) fun
        | .ok () => .done (error, batchesInit)
        | .error code => .done (match error with | .ok () => .error (.errno code) | e => e, batchesInit)
      else .done (error, batchesInit)
    if db.wal then .ask (.close .wal) fun
      | .ok () => closeDatabase (.ok ())
      | .error code => closeDatabase (.error (.errno code))
    else closeDatabase (.ok ())

end Opening

section Calls

def batchReady (db : Batches) : Except Error Unit :=
  if db.wal = false then .error (.errno .ebadf)
  else if db.failed then .error .recoveryRequired
  else .ok ()

def readArguments (db : Batches) (scratchSize : Nat) : Except Error Unit :=
  match batchReady db with
  | .error error => .error error
  | .ok () => if scratchSize < batchScratch then .error .bufferTooSmall else .ok ()

structure Status where
  committedBatches : Nat
  installedBatches : Nat
  pendingBatches : Nat
  installedSegments : Nat
  walBytes : Nat
  installedBytes : Nat
  lastTimestamp : Nat
  deriving DecidableEq, Repr

def batchesGetStatus (db : Batches) : Except Error Status :=
  match batchReady db with
  | .error error => .error error
  | .ok () => .ok
      { committedBatches := db.liveBatches + sub64 db.sequence db.installed
        installedBatches := db.liveBatches
        pendingBatches := sub64 db.sequence db.installed
        installedSegments := db.generation
        walBytes := db.walEnd
        installedBytes := db.dataEnd - dataStart
        lastTimestamp := db.lastTime }

def batchesRewind (db : Batches) : Except Error Unit × Batches :=
  match batchReady db with
  | .error error => (.error error, db)
  | .ok () => (.ok (), resetCursor db)

-- The times do not decrease from `floor` on.
def timesFrom : (floor : Nat) → List Record → Bool
  | _, [] => true
  | floor, record :: rest =>
      decide (floor ≤ record.timestamp.toNat) && timesFrom record.timestamp.toNat rest

def appendFloor (db : Batches) : Nat := if db.sequence ≠ 0 then db.lastTime else 0

def firstTime (records : List Record) : Nat := (records.head?.map (·.timestamp.toNat)).getD 0
def finalTime (records : List Record) : Nat := (records.getLast?.map (·.timestamp.toNat)).getD 0

def writeFrame (db : Batches) (records : List Record) : Io Unit := do
  let body := frameBody (db.sequence + 1) records
  writeExact .wal db.walEnd body
  fileSync .wal
  writeExact .wal (db.walEnd + body.length) (frameCommit (db.sequence + 1) records)
  fileSync .wal

def appended (db : Batches) (records : List Record) : Batches :=
  let fresh := db.walEnd = 32
  let minimum := if fresh then firstTime records else db.walMinimum
  let maximum := if fresh then finalTime records else db.walMaximum
  { db with
    failed := false
    walFirstTime := if fresh then firstTime records else db.walFirstTime
    walMinimum := if firstTime records < minimum then firstTime records else minimum
    walMaximum := if finalTime records > maximum then finalTime records else maximum
    lastTime := finalTime records
    walEnd := db.walEnd + (32 + records.length * 20 + 32)
    sequence := db.sequence + 1 }

def batchesAppend (db : Batches) (records : List Record) (scratchSize : Nat) : Op Nat :=
  match batchReady db with
  | .error error => refuse db error
  | .ok () =>
      if records.length = 0 ∨ records.length > maxRecords then refuse db (.errno .einval)
      else if scratchSize < batchScratch then refuse db .bufferTooSmall
      else if timesFrom (appendFloor db) records = false then refuse db .outOfOrder
      else if 32 + records.length * 20 + 32 > walCapacity - db.walEnd then refuse db .walFull
      else if db.sequence = uint64Max then refuse db (.errno .eoverflow)
      else
        -- Set before the first effect; no later failure can accidentally permit retry.
        attempt { db with failed := true } (writeFrame db records) fun _ =>
          succeed (appended db records) (db.sequence + 1)

end Calls

section Checkpoint

def skipOffset (db : Batches) : Io Nat :=
  let target := db.generation + 1 - lowBit (db.generation + 1)
  if target ≠ 0 then do
    let (offset, _) ← segmentAt db.dataEnd db.generation db.lastSegment target
    pure offset
  else pure 0

-- Link target and prior maximum, read before the first effect.
def checkpointLinks (db : Batches) : Io (Nat × Nat) := do
  let skip ← skipOffset db
  if db.retention = true ∧ db.generation ≠ 0 then do
    let segment ← readSegment .database db.lastSegment db.dataEnd
    pure (skip, segment.maximum)
  else pure (skip, db.installedTime)

/-- Feature 004 layout: add the manifest slots before the first install. -/
def upgradeLegacy (db : Batches) : Io Unit :=
  if db.legacy then do
    writeExact .database 32 (encodeManifest 0 dataStart 0 0 0 ++ List.replicate 64 0)
    fileSync .database
  else pure ()

-- The body of the install: re-validated WAL frames, copied verbatim.
def installFrames (limit destination : Nat) : (fuel offset sequence : Nat) → Io Nat
  | 0, _, sequence => pure sequence
  | fuel + 1, offset, sequence =>
      if offset < limit then do
        let frame ← complete (readFrame .wal offset limit (next64 sequence))
        writeExact .database (destination + (offset - 32)) frame.bytes
        installFrames limit destination fuel (offset + frame.bytes.length) (next64 sequence)
      else pure sequence

def checkpointManifest (db : Batches) (newEnd sequence : Nat) : Bytes :=
  if db.retention then
    encodeRetention (db.revision + 1) (db.generation + 1) newEnd sequence db.lastTime db.dataEnd 160 0
  else encodeManifest (db.generation + 1) newEnd sequence db.lastTime db.dataEnd

/-- Steps 1 and 2: segment header and frames, sync, then the manifest in the
slot not holding the current one, sync. Returns the installed sequence. -/
def installSegment (db : Batches) (skip : Nat) : Io Nat := do
  let body := db.walEnd - 32
  writeExact .database db.dataEnd
    (encodeSegment (db.installed + 1) db.sequence body db.walMinimum db.walMaximum
      db.lastSegment skip db.walOrdered)
  let sequence ← installFrames db.walEnd (db.dataEnd + 64) body 32 db.installed
  Io.require (sequence = db.sequence) .invalidDatabase
  fileSync .database
  writeExact .database (32 + 64 * ((db.revision + 1) % 2))
    (checkpointManifest db (db.dataEnd + 64 + body) sequence)
  fileSync .database
  pure sequence

-- The handle after the install point, before the WAL is reclaimed.
def installedHandle (db : Batches) (priorMax sequence : Nat) : Batches :=
  let newEnd := db.dataEnd + 64 + (db.walEnd - 32)
  let spanStart := if db.walFirstTime < priorMax then db.generation + 1 else db.spanStart
  { db with
    spanStart := if db.walOrdered = false then db.generation + 2 else spanStart
    installedTime := db.lastTime
    generation := db.generation + 1
    revision := db.revision + 1
    liveBatches := db.liveBatches + sub64 sequence db.installed
    dataEnd := newEnd
    lastSegment := db.dataEnd
    installed := sequence
    -- The segment body is a verbatim copy: WAL offset c is now D + 32 + c.
    cursor := if db.inWal then db.dataEnd + 64 + db.cursor - 32 else db.cursor
    segmentEnd := if db.inWal then newEnd else db.segmentEnd
    inWal := false }

-- Step 3: recovery finishes an interrupted truncation of the redundant frames.
def reclaimWal : Io Unit := do
  fileTruncate .wal 32
  fileSync .wal

def batchesCheckpoint (db : Batches) (scratchSize : Nat) : Op Unit :=
  match readArguments db scratchSize with
  | .error error => refuse db error
  | .ok () =>
      if db.walEnd = 32 then succeed db ()
      else if db.revision = uint64Max then refuse db (.errno .eoverflow)
      else if db.walEnd - 32 + 64 > databaseCapacity - db.dataEnd then refuse db .databaseFull
      else attempt db (checkpointLinks db) fun (skip, priorMax) =>
        let db := { db with failed := true }
        attempt db (upgradeLegacy db) fun _ =>
        let db := { db with legacy := false }
        attempt db (installSegment db skip) fun sequence =>
        let db := installedHandle db priorMax sequence
        attempt db reclaimWal fun _ =>
        succeed { db with walEnd := 32, walOrdered := true, failed := false } ()

end Checkpoint

section Reading

-- A batch in scratch with its sequence, and the cursor one past it.
structure Delivery where
  frame : Frame
  sequence : Nat
  db : Batches
  deriving DecidableEq, Repr

def delivered (db : Batches) (frame : Frame) (sequence cursor segmentEnd : Nat) (inWal : Bool) :
    Delivery :=
  ⟨frame, sequence, { db with
    inWal := inWal
    cursor := cursor + frame.bytes.length
    segmentEnd := segmentEnd
    readSequence := next64 sequence }⟩

def readWalCursor (db : Batches) (cursor expected : Nat) : Io Delivery :=
  if cursor = db.walEnd then Io.fail .endOfData
  else do
    let frame ← readFrame .wal cursor db.walEnd expected
    pure (delivered db frame expected cursor db.segmentEnd true)

def readInstalledCursor (db : Batches) (cursor segmentEnd expected : Nat) : Io Delivery := do
  -- Installed segments are complete: a frame that does not fit is damage.
  let frame ← complete (readFrame .database cursor segmentEnd expected)
  pure (delivered db frame expected cursor segmentEnd false)

/-- A borrowed cursor view never closes or changes ownership of native files. -/
def readCursor (db : Batches) : Io Delivery :=
  if db.inWal then readWalCursor db db.cursor db.readSequence
  else if db.cursor = db.dataEnd then readWalCursor db 32 (next64 db.installed)
  else if db.cursor = db.segmentEnd then do
    let segment ← readSegment .database db.cursor db.dataEnd
    Io.require (segment.first = db.readSequence ∨
      (db.retention = true ∧ db.readSequence ≤ segment.first)) .invalidDatabase
    let cursor := db.cursor + segment.headerSize
    readInstalledCursor db cursor (cursor + segment.body) segment.first
  else readInstalledCursor db db.cursor db.segmentEnd db.readSequence

def copyCursor (db source : Batches) : Batches :=
  { db with
    cursor := source.cursor
    segmentEnd := source.segmentEnd
    readSequence := source.readSequence
    inWal := source.inWal }

def frameRecord (frame : Frame) (i : Nat) : Bytes := frame.bytes.drop (32 + i * 20)

def frameRecords (frame : Frame) : List Record :=
  (List.range frame.records).map fun i => decodeRecord (frameRecord frame i)

-- A bound on how often any cursor of the handle can advance.
def cursorFuel (db : Batches) : Nat := db.dataEnd + db.walEnd + 2

/-- Returns the sequence and the records of the batch at the cursor. -/
def batchesNext (db : Batches) (capacity scratchSize : Nat) : Op (Nat × List Record) :=
  match readArguments db scratchSize with
  | .error error => refuse db error
  | .ok () => attempt db (readCursor db) fun delivery =>
      if capacity < delivery.frame.records then refuse db .bufferTooSmall
      else succeed (copyCursor db delivery.db) (delivery.sequence, frameRecords delivery.frame)

def positionSegment (db : Batches) (offset : Nat) (segment : SegmentInfo) : Batches :=
  { db with
    cursor := offset + segment.headerSize
    segmentEnd := offset + segment.headerSize + segment.body
    readSequence := segment.first
    inWal := false }

def positionWal (db : Batches) (cursor sequence : Nat) : Batches :=
  { db with inWal := true, cursor := cursor, readSequence := sequence }

/-- Stop before limit (a sequence), retaining the first qualifying batch.
`none` is TIMELITE_END, with the cursor it leaves. -/
def seekFrames (from_us limit : Nat) : (fuel : Nat) → Batches → Io (Batches × Bool)
  | 0, db => pure (db, false)
  | fuel + 1, db =>
      if db.readSequence ≤ limit then
        (readCursor db).examine fun
        | .error .endOfData => pure (db, false)
        | .error error => Io.fail error
        | .ok delivery =>
            if frameTime delivery.frame.bytes (delivery.frame.records - 1) ≥ from_us then pure (db, true)
            else seekFrames from_us limit fuel (copyCursor db delivery.db)
      else pure (db, false)

-- The prefix may be unordered. It cannot be excluded by binary search.
def seekPrefix (db : Batches) (from_us : Nat) :
    (count offset : Nat) → Batches → Io (Batches × Bool × Nat)
  | 0, offset, cursor => pure (cursor, false, offset)
  | count + 1, offset, cursor => do
      let segment ← readSegment .database offset db.dataEnd
      let (cursor, found) ←
        seekFrames from_us segment.last (cursorFuel db) (positionSegment cursor offset segment)
      if found then pure (cursor, true, offset)
      else seekPrefix db from_us count (offset + segment.headerSize + segment.body) cursor

def seekSpans (db : Batches) (from_us : Nat) : (fuel low high : Nat) → Io Nat
  | 0, low, _ => pure low
  | fuel + 1, low, high =>
      if low < high then do
        let middle := low + (high - low) / 2
        let (_, segment) ← segmentAt db.dataEnd db.generation db.lastSegment middle
        if segment.maximum < from_us then seekSpans db from_us fuel (middle + 1) high
        else seekSpans db from_us fuel low middle
      else pure low

def seekStart (db : Batches) (cursor : Batches) (low : Nat) : Io Batches :=
  if low ≤ db.generation then do
    let (offset, segment) ← segmentAt db.dataEnd db.generation db.lastSegment low
    pure (positionSegment cursor offset segment)
  else pure (positionWal cursor 32 (next64 db.installed))

def seekSuffix (db : Batches) (from_us : Nat) (cursor : Batches) : Io (Batches × Bool) := do
  let low ← seekSpans db from_us (db.generation + 1) db.spanStart (db.generation + 1)
  let cursor ← seekStart db cursor low
  let (cursor, found) ← seekFrames from_us db.sequence (cursorFuel db) cursor
  if found then pure (cursor, true)
  else pure (positionWal cursor db.walEnd (next64 db.sequence), false)

def batchesSeek (db : Batches) (from_us scratchSize : Nat) : Op Unit :=
  match readArguments db scratchSize with
  | .error error => refuse db error
  | .ok () => attempt db (seekPrefix db from_us (db.spanStart - 1) 160 (resetCursor db)) fun
      | (cursor, true, _) => succeed (copyCursor db cursor) ()
      | (cursor, false, _) => attempt db (seekSuffix db from_us cursor) fun
          | (cursor, true) => succeed (copyCursor db cursor) ()
          | (cursor, false) => refuse (copyCursor db cursor) .endOfData

structure Range where
  from_us : Nat
  until_us : Nat
  series : Nat
  filterSeries : Nat
  deriving DecidableEq, Repr

def recordMatches (record : Bytes) (range : Range) : Bool :=
  let time := decode64 (record.drop 4)
  decide (time ≥ range.from_us ∧ time < range.until_us ∧
    (range.filterSeries = 0 ∨ decode32 record = range.series))

def matchingRecords (frame : Frame) (range : Range) : List Record :=
  ((List.range frame.records).filter fun i => recordMatches (frameRecord frame i) range).map
    fun i => decodeRecord (frameRecord frame i)

-- The segment whose maximum stands for the installed data.
def latestSegment (db : Batches) (segment : SegmentInfo) : Io SegmentInfo :=
  if db.retention = true ∧ db.walEnd ≠ 32 then readSegment .database db.lastSegment db.dataEnd
  else pure segment

/-- Only a proven ordered suffix permits stopping at the upper bound. An
unordered legacy WAL prevents an earlier installed-data stop as well. -/
def orderedSequence (db : Batches) : Io Nat :=
  if db.walOrdered = false then pure db.sequence
  else if db.spanStart ≤ db.generation then do
    let (_, segment) ← segmentAt db.dataEnd db.generation db.lastSegment db.spanStart
    let last ← latestSegment db segment
    -- A legacy WAL can start below the installed maximum.
    if db.walEnd = 32 ∨
        db.walFirstTime ≥ (if db.retention then last.maximum else db.installedTime) then
      pure segment.first
    else pure (next64 db.installed)
  else pure (next64 db.installed)

def nextMatch (db : Batches) (range : Range) (capacity ordered : Nat) :
    (fuel : Nat) → Batches → Io (Nat × List Record × Batches)
  | 0, _ => Io.fail .endOfData
  | fuel + 1, cursor => do
      let delivery ← readCursor cursor
      let found := matchingRecords delivery.frame range
      if found.length ≠ 0 then
        if found.length > capacity then Io.fail .bufferTooSmall
        else pure (delivery.sequence, found, delivery.db)
      else if delivery.sequence ≥ ordered ∧ db.walOrdered = true ∧
          frameTime delivery.frame.bytes 0 ≥ range.until_us then Io.fail .endOfData
      else nextMatch db range capacity ordered fuel delivery.db

def batchesNextRange (db : Batches) (range : Range) (capacity scratchSize : Nat) :
    Op (Nat × List Record) :=
  match batchReady db with
  | .error error => refuse db error
  | .ok () =>
      if range.from_us > range.until_us ∨ (range.filterSeries ≠ 0 ∧ range.filterSeries ≠ 1) then
        refuse db (.errno .einval)
      else if scratchSize < batchScratch then refuse db .bufferTooSmall
      else if range.from_us = range.until_us then refuse db .endOfData
      else attempt db (orderedSequence db) fun ordered =>
        attempt db (nextMatch db range capacity ordered (cursorFuel db) db) fun (sequence, found, cursor) =>
        succeed (copyCursor db cursor) (sequence, found)

structure Aggregate where
  recordCount : Nat
  minimumValue : Int64
  maximumValue : Int64
  deriving DecidableEq, Repr

def Aggregate.note (aggregate : Aggregate) (value : Int64) : Aggregate where
  recordCount := aggregate.recordCount + 1
  minimumValue :=
    if aggregate.recordCount = 0 ∨ value < aggregate.minimumValue then value else aggregate.minimumValue
  maximumValue :=
    if aggregate.recordCount = 0 ∨ value > aggregate.maximumValue then value else aggregate.maximumValue

-- The loop over a borrowed cursor; `db` is the caller's handle.
def aggregateLoop (db : Batches) (range : Range) (scratchSize : Nat) :
    (fuel : Nat) → Batches → Aggregate → Op Aggregate
  | 0, _, _ => refuse db .endOfData
  | fuel + 1, cursor, aggregate =>
      Prog.bind (batchesNextRange cursor range maxRecords scratchSize) fun
      | (.ok (_, found), cursor) =>
          aggregateLoop db range scratchSize fuel cursor
            ((found.map (·.value)).foldl Aggregate.note aggregate)
      | (.error .endOfData, _) => succeed db aggregate
      | (.error error, _) => refuse db error

/-- Borrow files without acquiring or releasing ownership. -/
def batchesAggregateRange (db : Batches) (range : Range) (scratchSize : Nat) : Op Aggregate :=
  match batchReady db with
  | .error error => refuse db error
  | .ok () =>
      if range.from_us > range.until_us ∨ (range.filterSeries ≠ 0 ∧ range.filterSeries ≠ 1) then
        refuse db (.errno .einval)
      else if scratchSize < batchScratch then refuse db .bufferTooSmall
      else aggregateLoop db range scratchSize (cursorFuel db) (resetCursor db) ⟨0, 0, 0⟩

end Reading

section Expiration

structure Survey where
  bytes : Nat
  segments : Nat
  live : Nat
  deriving DecidableEq, Repr

def surveySegments (dataEnd cutoff : Nat) : (fuel offset : Nat) → Survey → Io Survey
  | 0, _, survey => pure survey
  | fuel + 1, offset, survey =>
      if offset < dataEnd then do
        let segment ← readSegment .database offset dataEnd
        let expires ← segmentExpires offset segment cutoff
        surveySegments dataEnd cutoff fuel (offset + segment.headerSize + segment.body)
          (if expires then survey
           else ⟨survey.bytes + (segment.headerSize + segment.body), survey.segments + 1,
             survey.live + (segment.last - segment.first + 1)⟩)
      else pure survey

def relocate (db : Batches) (segments cutoff : Nat) : Io Finished := do
  let state ← publishRetention ⟨db.revision, 160, 0, db.retention⟩ db.generation db.dataEnd
    db.installed db.installedTime db.lastSegment 160 1
  let (newEnd, tail) ← copySegments 160 db.dataEnd db.dataEnd true cutoff
  let state ← publishRetention state segments newEnd db.installed db.installedTime tail db.dataEnd 2
  finishRetention state segments newEnd db.installed db.installedTime tail

/-- Locate the original next sequence, or the first surviving successor. -/
def relocateCursor (wanted : Nat) : (fuel : Nat) → Batches → Io Batches
  | 0, _ => Io.fail .invalidDatabase
  | fuel + 1, cursor =>
      let atEnd := positionWal cursor cursor.walEnd (next64 cursor.sequence)
      if wanted = 0 then pure atEnd
      else (readCursor cursor).examine fun
        | .error .endOfData => pure atEnd
        | .error error => Io.fail error
        | .ok delivery =>
            if delivery.sequence ≥ wanted then pure cursor
            else relocateCursor wanted fuel delivery.db

def batchesExpireBefore (db : Batches) (cutoff scratchSize : Nat) : Op Unit :=
  match readArguments db scratchSize with
  | .error error => refuse db error
  | .ok () => attempt db (surveySegments db.dataEnd cutoff (db.dataEnd - 160) 160 ⟨0, 0, 0⟩) fun survey =>
      if survey.segments = db.generation then succeed db ()
      else if survey.bytes > databaseCapacity - db.dataEnd then refuse db .databaseFull
      else if db.revision > uint64Max - 5 then refuse db (.errno .eoverflow)
      else
        let db := { db with failed := true }
        attempt db (relocate db survey.segments cutoff) fun finished =>
        attempt db (checkSegments survey.segments finished.dataEnd db.installed finished.tail
          db.installedTime true finished.state) fun checked =>
        let cursor := resetCursor { db with
          generation := survey.segments
          revision := finished.state.revision
          retention := true
          liveBatches := survey.live
          dataEnd := finished.dataEnd
          lastSegment := finished.tail
          installedTime := checked.lastTime
          spanStart := checked.spanStart }
        attempt db (relocateCursor db.readSequence (cursorFuel cursor) cursor) fun cursor =>
        succeed { cursor with failed := false } ()

end Expiration

end Timelite.BatchApi
