import Timelite.Abstract
import Timelite.Dumping

/-!
A target trial of tools/target: the workload, the controller with its journal, and
the oracle that compares the dump of the recovered pair with the journal. Lines are
taken as parsed: an operation line, a response, a journal event, a line of the dump.
-/
namespace Timelite.Trials
open ByteFile Program Durable Codec Backend BackendLaws Layout WalLaws Contents Crashes Databases Calls Retaining Cursor Expiring
  Reader BatchApi Opening Appending Checkpointing Atomicity System Refinement Soundness Undisturbed Observing Answering Abstract Dumping

/-- `A`, `C` and `R`. -/
inductive Operation where
  | append
  | checkpoint
  | retain
  deriving DecidableEq, Repr

def Operation.letter : Operation → String
  | .append => "A"
  | .checkpoint => "C"
  | .retain => "R"

structure Command where
  op : Operation
  value : Nat
  deriving DecidableEq, Repr

def Command.text (line : Command) : String := line.op.letter ++ " " ++ toString line.value

/-- The `ValueError`s of evidence.py. -/
inductive Complaint where
  | operation (line : Command)
  | bound
  | planSize
  | planOrder
  | reused
  | mismatch
  | sessions
  | intents
  | acknowledgement
  | number
  | event
  | session
  | dump
  | contents
  | metadata
  | oracle
  deriving DecidableEq, Repr

def Complaint.text : Complaint → String
  | .operation line => "invalid operation: " ++ line.text
  | .bound => "value exceeds workload bound"
  | .planSize => "plan must contain 1..256 operations"
  | .planOrder => "append IDs must strictly increase"
  | .reused => "reused or unordered append ID"
  | .mismatch => "acknowledged sequence mismatch"
  | .sessions => "multiple sessions require separate reconciled trials"
  | .intents => "overlapping or unpaired intents"
  | .acknowledgement => "unpaired acknowledgement"
  | .number => "invalid non-append sequence"
  | .event => "unknown journal event"
  | .session => "missing session"
  | .dump => "recovery/dump did not succeed"
  | .contents => "unexpected record contents"
  | .metadata => "missing or inconsistent dump metadata"
  | .oracle => "recovered records/floor violate external acknowledgement oracle"

section Oracle

/-- `[ACR] [1-9][0-9]{0,6}`, then the bound. -/
def command (line : Command) : Except Complaint Unit :=
  if line.value = 0 ∨ 9999999 < line.value then .error (.operation line)
  else if 1000000 < line.value then .error .bound
  else .ok ()

/-- A segment of the oracle has records: sequence numbers and values. -/
structure Chunk where
  records : List (Nat × Nat)
  occupied : records ≠ []
  deriving DecidableEq, Repr

-- `max(v for _, v in s)`; the values are positive.
def newest (records : List (Nat × Nat)) : Nat := (records.map Prod.snd).foldl max 0

structure Tally where
  high : Nat
  floor : Nat
  segments : List Chunk
  pending : List (Nat × Nat)
  deriving DecidableEq, Repr

def Tally.empty : Tally := ⟨0, 0, [], []⟩

/-- `apply`. -/
def Tally.apply (state : Tally) (operation : Command) (sequence : Option Nat) : Except Complaint Tally := do
  command operation
  match operation.op with
  | .append =>
      if operation.value ≤ state.floor then .error .reused
      else if sequence.any fun number => decide (number ≠ state.high + 1) then .error .mismatch
      else .ok { state with
        high := state.high + 1
        floor := operation.value
        pending := state.pending ++ [(state.high + 1, operation.value)] }
  | .checkpoint =>
      if some : state.pending ≠ [] then
        .ok { state with segments := state.segments ++ [⟨state.pending, some⟩], pending := [] }
      else .ok state
  | .retain =>
      .ok { state with segments := state.segments.filter fun segment => decide (operation.value ≤ newest segment.records) }

inductive Entry where
  | start
  | intent (operation : Command)
  | ack (operation : Command) (sequence : Nat)
  | ended
  | uncertain
  | unknown (kind : String)
  deriving DecidableEq, Repr

/-- The variables of `candidates`. -/
structure Ledger where
  state : Tally
  pending : Option Command
  started : Bool
  deriving DecidableEq, Repr

def Ledger.note (ledger : Ledger) : Entry → Except Complaint Ledger
  | .start => if ledger.started then .error .sessions else .ok { ledger with started := true }
  | .intent operation =>
      if ledger.started = false ∨ ledger.pending.isSome then .error .intents
      else do
        command operation
        pure { ledger with pending := some operation }
  | .ack operation sequence =>
      if ledger.pending ≠ some operation then .error .acknowledgement
      else if operation.op ≠ .append ∧ sequence ≠ 0 then .error .number
      else do
        let state ← ledger.state.apply operation (if operation.op = .append then some sequence else none)
        pure { ledger with state, pending := none }
  | .ended | .uncertain => .ok ledger
  | .unknown _ => .error .event

def scan (journal : List Entry) : Except Complaint Ledger := journal.foldlM Ledger.note ⟨.empty, none, false⟩

def candidates (journal : List Entry) : Except Complaint (List Tally) := do
  let ledger ← scan journal
  if ledger.started = false then .error .session
  else
    match ledger.pending with
    | none => pure [ledger.state]
    | some operation => do
        let after ← ledger.state.apply operation none
        pure [ledger.state, after]

/-- `records`. -/
def Tally.records (state : Tally) : List (Nat × Nat) := (state.segments.flatMap Chunk.records) ++ state.pending

-- The `batch=` lines: series 14, and the value equal to the timestamp.
def actual : List Line → Except Complaint (List (Nat × Nat))
  | [] => .ok []
  | .record sequence found :: rest =>
      if found.series.toNat = 14 ∧ found.value.toInt = found.timestamp.toNat then do
        let later ← actual rest
        pure ((sequence, found.timestamp.toNat) :: later)
      else .error .contents
  | _ :: rest => actual rest

def readError : Line → Bool
  | .readError _ => true
  | _ => false

def floorLine : Line → Option Nat
  | .lastTimestamp time => some time
  | _ => none

def countLine : Line → Option Nat
  | .committedBatches count => some count
  | _ => none

structure Report where
  acceptableStates : Nat
  interruptedOperation : Bool
  recordsChecked : Nat
  sequenceHighWaterChecked : Bool
  deriving DecidableEq, Repr

-- `expected` of the loop over the states.
def Tally.continued (state : Tally) : (continuation : Option Nat) → Except Complaint Tally
  | none => .ok state
  | some id => state.apply ⟨.append, id⟩ none

def compare (journal : List Entry) (dump : List Line) (continuation : Option Nat) : Except Complaint Report := do
  if Line.openResult ∉ dump ∨ dump.any readError then .error .dump
  else
    let found ← actual dump
    match dump.filterMap floorLine, dump.filterMap countLine with
    | [floor], [count] =>
        if count ≠ found.length then .error .metadata
        else
          let states ← candidates journal
          let expected ← states.mapM fun state => state.continued continuation
          let agreeing := expected.filter fun state => decide (state.records = found ∧ state.floor = floor)
          if agreeing = [] then .error .oracle
          else pure ⟨agreeing.length, decide (1 < states.length), found.length, continuation.isSome⟩
    | _, _ => .error .metadata

end Oracle

section Session

/-- The order that `collect` asks of the append IDs. -/
def ordered : (previous : Nat) → List Command → Except Complaint Unit
  | _, [] => .ok ()
  | previous, line :: rest => do
      command line
      if line.op = .append then
        if line.value ≤ previous then .error .planOrder else ordered line.value rest
      else ordered previous rest

/-- What the workload calls for a line. -/
def Command.act (line : Command) : Act :=
  match line.op with
  | .append => .append [⟨14, .ofNat line.value, .ofNat line.value⟩] batchScratch
  | .checkpoint => .checkpoint batchScratch
  | .retain => .expireBefore line.value batchScratch

/-- The check of a response in `collect`. -/
def acceptable (line : Command) (sequence : Nat) : Bool :=
  decide (if line.op = .append then sequence ≠ 0 else sequence = 0)

/-- What the workload calls before it prints `ready`. -/
def creating : Act := .openPair .createNew batchScratch

/-- Where the controller and the workload stand. -/
inductive Link where
  -- The controller waits for `ready`.
  | opening (rest : List Command)
  | idle (rest : List Command)
  | sent (line : Command) (rest : List Command)
  | answered (line : Command) (sequence : Nat) (rest : List Command)
  -- The workload has left on an error.
  | failed
  -- The controller has left; the workload may still have a call to make.
  | over (unread : Option Act)
  deriving DecidableEq, Repr

def Link.unread : Link → Option Act
  | .opening _ => some creating
  | .sent line _ => some line.act
  | .over unread => unread
  | _ => none

structure Session where
  journal : List Entry
  host : Host
  link : Link

/-- One event of a session. Intents are journalled before the line is sent, and an
acknowledgement after its response has come; the controller can give up any time. -/
inductive Session.Step : Session → Session → Prop where
  | ready {journal : List Entry} {host : Host} {rest : List Command} {db : Batches} {store : Store}
      (execution : Exec device (creating.perform host.db) host.store (some (.ok .none, db)) store) :
      Step ⟨journal, host, .opening rest⟩ ⟨journal, ⟨store, db⟩, .idle rest⟩
  | unready {journal : List Entry} {host : Host} {rest : List Command} {error : Error} {db : Batches} {store : Store}
      (execution : Exec device (creating.perform host.db) host.store (some (.error error, db)) store) :
      Step ⟨journal, host, .opening rest⟩ ⟨journal, ⟨store, db⟩, .failed⟩
  | intend {journal : List Entry} {host : Host} {line : Command} {rest : List Command} :
      Step ⟨journal, host, .idle (line :: rest)⟩ ⟨journal ++ [.intent line], host, .sent line rest⟩
  | answer {journal : List Entry} {host : Host} {line : Command} {rest : List Command} {answer : Answer} {db : Batches}
      {store : Store} (execution : Exec device (line.act.perform host.db) host.store (some (.ok answer, db)) store) :
      Step ⟨journal, host, .sent line rest⟩ ⟨journal, ⟨store, db⟩, .answered line (sequenceOf answer) rest⟩
  | refuse {journal : List Entry} {host : Host} {line : Command} {rest : List Command} {error : Error} {db : Batches}
      {store : Store} (execution : Exec device (line.act.perform host.db) host.store (some (.error error, db)) store) :
      Step ⟨journal, host, .sent line rest⟩ ⟨journal, ⟨store, db⟩, .failed⟩
  | acknowledge {journal : List Entry} {host : Host} {line : Command} {sequence : Nat} {rest : List Command}
      (accepted : acceptable line sequence = true) :
      Step ⟨journal, host, .answered line sequence rest⟩ ⟨journal ++ [.ack line sequence], host, .idle rest⟩
  | finish {journal : List Entry} {host : Host} : Step ⟨journal, host, .idle []⟩ ⟨journal ++ [.ended], host, .over none⟩
  | giveUp {journal : List Entry} {host : Host} {link : Link} (listening : ∀ unread, link ≠ .over unread) :
      Step ⟨journal, host, link⟩ ⟨journal ++ [.uncertain], host, .over link.unread⟩
  | late {journal : List Entry} {host : Host} {act : Act} {result : Except Error Answer} {db : Batches} {store : Store}
      (execution : Exec device (act.perform host.db) host.store (some (result, db)) store) :
      Step ⟨journal, host, .over (some act)⟩ ⟨journal, ⟨store, db⟩, .over none⟩

/-- The target stops, inside the call that it has or while it closes the pair. -/
inductive Session.Stopped (session : Session) : Store → Prop where
  | still : Stopped session session.host.store
  | inside {act : Act} {store : Store} (unread : session.link.unread = some act)
      (execution : Exec device (act.perform session.host.db) session.host.store none store) : Stopped session store
  | closing {store : Store} {outcome : Option (Except Error Answer × Batches)}
      (execution : Exec device (Act.close.perform session.host.db) session.host.store outcome store) : Stopped session store

end Session

end Timelite.Trials
