import Timelite.Traversing

/-!
The inspector's `status`, which uses the public API only: what its dump of a
window prints, against the records the pair has committed.
-/
namespace Timelite.Dumping
open ByteFile Program Durable Codec CodecLaws Backend BackendLaws Layout HeaderWalk WalLaws Contents Images Crashes Calls Cursor
  Reader BatchApi Spans Seeking Ranging Aggregating System Refinement Undisturbed Admitting Answering Observing Reaching Querying
  Enumerating Traversing

/-- A line that `status` prints. -/
inductive Line where
  | mode
  | readOnly
  | note
  | database (path : String)
  | wal (path : String)
  | openError (error : Error)
  | openCode (error : Error)
  | openResult
  | committedBatches (count : Nat)
  | installedBatches (count : Nat)
  | pendingBatches (count : Nat)
  | installedSegments (count : Nat)
  | walBytes (size : Nat)
  | installedBytes (size : Nat)
  | lastTimestamp (time : Nat)
  | statusError (error : Error)
  | record (sequence : Nat) (record : Record)
  | readError (error : Error)
  | closeError (error : Error)
  deriving DecidableEq, Repr

def inspectErrorName : Error → String
  | .invalidDatabase => "TIMELITE_INVALID_DATABASE"
  | .unsupportedVersion => "TIMELITE_UNSUPPORTED_VERSION"
  | .endOfData => "TIMELITE_END"
  | .bufferTooSmall => "TIMELITE_BUFFER_TOO_SMALL"
  | .recoveryRequired => "TIMELITE_RECOVERY_REQUIRED"
  | .walFull => "TIMELITE_WAL_FULL"
  | .pairMismatch => "TIMELITE_PAIR_MISMATCH"
  | .databaseFull => "TIMELITE_DATABASE_FULL"
  | .outOfOrder => "TIMELITE_OUT_OF_ORDER"
  | .errno .einval => "EINVAL"
  | .errno .enoent => "ENOENT"
  | .errno .enotsup => "ENOTSUP"
  | .errno .ebadf => "EBADF"
  | .errno .ebusy => "EBUSY"
  | .errno .eexist => "EEXIST"
  | .errno .eio => "EIO"
  | .errno .enospc => "ENOSPC"
  | .errno .eoverflow => "EOVERFLOW"
  | .errno (.other _) => "errno"

def errorCode (number : Errno → Nat) : Error → Int
  | .invalidDatabase => -1
  | .unsupportedVersion => -2
  | .endOfData => -3
  | .bufferTooSmall => -4
  | .recoveryRequired => -5
  | .walFull => -6
  | .pairMismatch => -7
  | .databaseFull => -8
  | .outOfOrder => -9
  | .errno code => number code

/-- The text of a line, on a platform with these error numbers. -/
def Line.text (number : Errno → Nat) : Line → String
  | .mode => "mode=status"
  | .readOnly => "read_only=0"
  | .note => "note=status opens the pair with the library; open performs normal recovery (WAL suffix truncation, " ++
      "reclaim or retention finish)"
  | .database path => "database=" ++ path
  | .wal path => "wal=" ++ path
  | .openError error => "open_error=" ++ inspectErrorName error
  | .openCode error => "open_code=" ++ toString (errorCode number error)
  | .openResult => "open_result=ok"
  | .committedBatches count => "committed_batches=" ++ toString count
  | .installedBatches count => "installed_batches=" ++ toString count
  | .pendingBatches count => "pending_batches=" ++ toString count
  | .installedSegments count => "installed_segments=" ++ toString count
  | .walBytes size => "wal_bytes=" ++ toString size
  | .installedBytes size => "installed_bytes=" ++ toString size
  | .lastTimestamp time => "last_timestamp_us=" ++ toString time
  | .statusError error => "status_error=" ++ inspectErrorName error
  | .record sequence found => "batch=" ++ toString sequence ++ " series=" ++ toString found.series.toNat ++
      " us=" ++ toString found.timestamp.toNat ++ " value=" ++ toString found.value.toInt
  | .readError error => "read_error=" ++ inspectErrorName error
  | .closeError error => "close_error=" ++ inspectErrorName error

/-- `error < 0 ? 1 : 2`. -/
def exitCode : Error → Nat
  | .errno _ => 2
  | _ => 1

def statusLines (status : Status) : List Line :=
  [.committedBatches status.committedBatches, .installedBatches status.installedBatches,
    .pendingBatches status.pendingBatches, .installedSegments status.installedSegments, .walBytes status.walBytes,
    .installedBytes status.installedBytes, .lastTimestamp status.lastTimestamp]

/-- One read of the dump: through the window, where there is one. -/
def reading : Option Range → Act
  | some range => .nextRange range maxRecords batchScratch
  | none => .next maxRecords batchScratch

-- The loop `while (error == 0)`, with the error that ends it.
def dumpLoop (range : Option Range) : (fuel : Nat) → Host → Option (Error × List Line × Host)
  | 0, _ => none
  | fuel + 1, host =>
      match host.call (reading range) with
      | (.ok (.batch sequence records), host) =>
          (dumpLoop range fuel host).map fun (error, lines, last) => (error, records.map (.record sequence) ++ lines, last)
      -- A read that succeeds answers with a batch.
      | (.ok _, _) => none
      | (.error error, host) => some (error, [], host)

-- Seek to the window's start, then read to the end: the error left, the lines and the handle.
def dumpRecords (range : Option Range) (haveFrom : Bool) (fuel : Nat) (host : Host) :
    Option (Option Error × List Line × Host) :=
  let sought :=
    match range with
    | some range => if haveFrom then host.call (.seek range.from_us batchScratch) else (.ok .none, host)
    | none => (.ok .none, host)
  match sought with
  | (.ok _, host) | (.error .endOfData, host) =>
      (dumpLoop range fuel host).map fun (error, lines, host) =>
        if error = .endOfData then (none, lines, host) else (some error, lines ++ [.readError error], host)
  | (.error error, host) => some (some error, [.readError error], host)

def closing (error : Option Error) (host : Host) : Nat × List Line × Host :=
  let (closed, host) := host.call .close
  match error, closed with
  | some error, _ => (exitCode error, [], host)
  | none, .error error => (2, [.closeError error], host)
  | none, .ok _ => (0, [], host)

/-- The exit code, the lines and the files afterwards. -/
def inspectStatus (database wal : String) (dump : Bool) (range : Option Range) (haveFrom : Bool) (fuel : Nat)
    (store : Store) : Option (Nat × List Line × Host) :=
  let front := [.mode, .readOnly, .note, .database database, .wal wal]
  match Host.call ⟨store, batchesInit⟩ (.openPair .openExisting batchScratch) with
  | (.error error, host) => some (exitCode error, front ++ [.openError error, .openCode error], host)
  | (.ok _, host) =>
      match host.call .getStatus with
      | (.ok (.status status), host) => do
          let (error, lines, host) ← if dump then dumpRecords range haveFrom fuel host else some (none, [], host)
          let (code, last, host) := closing error host
          some (code, front ++ [.openResult] ++ statusLines status ++ lines ++ last, host)
      -- The status call answers with a status.
      | (.ok _, _) => none
      | (.error error, host) =>
          let (code, last, host) := closing (some error) host
          some (code, front ++ [.openResult, .statusError error] ++ last, host)

/-- The records that the lines show. -/
def recordsOf (lines : List Line) : List (Nat × Record) :=
  lines.filterMap fun
    | .record sequence record => some (sequence, record)
    | _ => none

section Stopping
variable {store : Store} {db : Batches} {segments : List Segment} {pending : List Batch} {rest : List (Nat × Batch)}
  {range : Range}

/-- The batches that a reader of the range gets to. -/
def reached (db : Batches) (segments : List Segment) (range : Range) (rest : List (Nat × Batch)) : List (Nat × Batch) :=
  rest.takeWhile fun item => !stops db range (orderedFrom db segments) item

end Stopping

section Dump
variable {store : Store} {db : Batches} {segments : List Segment} {pending : List Batch} {rest : List (Nat × Batch)}
  {opened : Host} {range : Range} {haveFrom : Bool}

def printed (items : List Item) : List Line := items.flatMap fun item => item.2.map (.record item.1)

end Dump

end Timelite.Dumping
