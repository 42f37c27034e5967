import Timelite.Aggregating

/-!
A host that uses one pair through the API: calls on one handle, backend failures
inside them, process restarts that keep the system's cache, and crashes that keep
a surviving image of each file.
-/
namespace Timelite.System
open ByteFile Program Durable Codec Backend BackendLaws Crashes BatchApi

inductive Act where
  | openPair (mode : OpenMode) (scratchSize : Nat)
  | close
  | append (records : List Record) (scratchSize : Nat)
  | checkpoint (scratchSize : Nat)
  | expireBefore (cutoff scratchSize : Nat)
  | next (capacity scratchSize : Nat)
  | nextRange (range : Range) (capacity scratchSize : Nat)
  | seek (from_us scratchSize : Nat)
  | aggregateRange (range : Range) (scratchSize : Nat)
  | rewind
  | getStatus
  deriving DecidableEq, Repr

inductive Answer where
  | none
  | sequence (number : Nat)
  | batch (sequence : Nat) (records : List Record)
  | aggregate (result : Aggregate)
  | status (status : Status)
  deriving DecidableEq, Repr

-- The sequence number of an answer; only append sets it.
def sequenceOf : Answer → Nat
  | .sequence number => number
  | _ => 0

def answering {α : Type} (answer : α → Answer) (call : Op α) : Op Answer :=
  Prog.bind call fun (result, db) => .done (result.map answer, db)

def Act.perform (db : Batches) : Act → Op Answer
  | .openPair mode scratchSize => answering (fun _ => .none) (batchesOpen db mode scratchSize)
  | .close => answering (fun _ => .none) (batchesClose db)
  | .append records scratchSize => answering .sequence (batchesAppend db records scratchSize)
  | .checkpoint scratchSize => answering (fun _ => .none) (batchesCheckpoint db scratchSize)
  | .expireBefore cutoff scratchSize => answering (fun _ => .none) (batchesExpireBefore db cutoff scratchSize)
  | .next capacity scratchSize =>
      answering (fun found => .batch found.1 found.2) (batchesNext db capacity scratchSize)
  | .nextRange range capacity scratchSize =>
      answering (fun found => .batch found.1 found.2) (batchesNextRange db range capacity scratchSize)
  | .seek from_us scratchSize => answering (fun _ => .none) (batchesSeek db from_us scratchSize)
  | .aggregateRange range scratchSize => answering .aggregate (batchesAggregateRange db range scratchSize)
  | .rewind => .done ((batchesRewind db).1.map fun _ => .none, (batchesRewind db).2)
  | .getStatus => .done ((batchesGetStatus db).map .status, db)

structure Host where
  store : Store
  db : Batches
  deriving DecidableEq, Repr

inductive Event where
  | returned (act : Act) (result : Except Error Answer)
  | restarted (act : Act)
  | crashed (act : Act)

def Event.act : Event → Act
  | .returned act _ => act
  | .restarted act => act
  | .crashed act => act

/-- The machine after a crash that left these images. -/
def booted (store : Store) (d w : Bytes) : Store := ⟨some (settled d), some (settled w), store.entropy⟩

/-- One step: a call returns, the process dies inside or before a call, or the
machine does. A new process starts with an initialised handle. -/
inductive Step : Host → Event → Host → Prop where
  | returned {host : Host} {act : Act} {result : Except Error Answer} {db : Batches} {store : Store}
      (execution : Exec device (act.perform host.db) host.store (some (result, db)) store) :
      Step host (.returned act result) ⟨store, db⟩
  | restarted {host : Host} {act : Act} {store : Store}
      (execution : Exec device (act.perform host.db) host.store none store) :
      Step host (.restarted act) ⟨store, batchesInit⟩
  | crashed {host : Host} {act : Act} {store : Store} {d w : Bytes}
      (execution : Exec device (act.perform host.db) host.store none store) (survives : Surviving store d w) :
      Step host (.crashed act) ⟨booted store d w, batchesInit⟩

inductive Run : Host → List Event → Host → Prop where
  | start (host : Host) : Run host [] host
  | step {first middle last : Host} {events : List Event} {event : Event} (before : Run first events middle)
      (after : Step middle event last) : Run first (events ++ [event]) last

/-- The host right after the CREATE_NEW open of a pair returned 0. -/
def Created (host : Host) : Prop :=
  ∃ db store scratchSize, store.entropy.length = 16 ∧
    Exec device (batchesOpen db .createNew scratchSize) store (some (.ok (), host.db)) host.store

/-- The undisturbed call. -/
def Host.call (host : Host) (act : Act) : Except Error Answer × Host :=
  let ran := Prog.run device (act.perform host.db) host.store
  (ran.1.1, ⟨ran.2, ran.1.2⟩)

theorem call_step (host : Host) (act : Act) : Step host (.returned act (host.call act).1) (host.call act).2 :=
  .returned (exec_run device _ _)

/-- The undisturbed calls, one after another. -/
def Host.calls (host : Host) (acts : List Act) : Host := acts.foldl (fun host act => (host.call act).2) host

theorem calls_run {first host : Host} {events : List Event} (run : Run first events host) (acts : List Act) :
    ∃ later, Run first later (host.calls acts) := by
  induction acts generalizing host events with
  | nil => exact ⟨events, run⟩
  | cons act rest ih => exact ih (.step run (call_step host act))

/-- The run in which the request after so many fails, before it has an effect. -/
def spoiled {α : Type} : Nat → Prog Reply α → Store → α × Store
  | _, .done value, store => (value, store)
  | 0, .ask _ next, store => (next (.error .eio)).run device store
  | count + 1, .ask request next, store => spoiled count (next (serve request store).1) (serve request store).2

theorem exec_spoiled {α : Type} (count : Nat) (program : Prog Reply α) (store : Store) :
    Exec device program store (some (spoiled count program store).1) (spoiled count program store).2 := by
  induction program generalizing count store with
  | done value =>
      cases count <;> exact .done value store
  | ask request next ih =>
      cases count with
      | zero => exact .fail (.before request store .eio ⟨by decide, by decide⟩) (exec_run device _ _)
      | succ count => exact .serve (ih _ count _)

/-- The call in which that request fails. -/
def Host.spoil (host : Host) (act : Act) (count : Nat) : Except Error Answer × Host :=
  let ran := spoiled count (act.perform host.db) host.store
  (ran.1.1, ⟨ran.2, ran.1.2⟩)

theorem spoil_step (host : Host) (act : Act) (count : Nat) :
    Step host (.returned act (host.spoil act count).1) (host.spoil act count).2 :=
  .returned (exec_spoiled count _ _)

/-- The host after a power cut that kept everything. -/
def Host.reboot (host : Host) (act : Act) (count : Nat) : Host :=
  let store := (act.perform host.db).after device count host.store
  ⟨booted store (store.content .database) (store.content .wal), batchesInit⟩

theorem reboot_step (host : Host) (act : Act) (count : Nat) : Step host (.crashed act) (host.reboot act count) :=
  .crashed (exec_after device count _ _) ⟨survives_content _, survives_content _⟩

theorem call_created {store : Store} (wide : store.entropy.length = 16) {scratchSize : Nat}
    (success : (Host.call ⟨store, batchesInit⟩ (.openPair .createNew scratchSize)).1 = .ok .none) :
    Created (Host.call ⟨store, batchesInit⟩ (.openPair .createNew scratchSize)).2 := by
  have ran := run_bind device (batchesOpen batchesInit .createNew scratchSize)
    (fun (result, db) => .done (result.map (fun _ => Answer.none), db)) store
  have whole := exec_run device (batchesOpen batchesInit .createNew scratchSize) store
  have result : (Prog.run device (batchesOpen batchesInit .createNew scratchSize) store).1.1 = .ok () := by
    have answer : (Prog.run device (answering (fun _ => Answer.none) (batchesOpen batchesInit .createNew scratchSize))
        store).1.1 = .ok .none := success
    rw [answering, ran] at answer
    cases outcome : (Prog.run device (batchesOpen batchesInit .createNew scratchSize) store).1.1 with
    | ok value => rfl
    | error error =>
        simp only [Prog.run, outcome] at answer
        cases answer
  refine ⟨batchesInit, store, scratchSize, wide, ?_⟩
  have host : (Host.call ⟨store, batchesInit⟩ (.openPair .createNew scratchSize)).2 =
      ⟨(Prog.run device (batchesOpen batchesInit .createNew scratchSize) store).2,
        (Prog.run device (batchesOpen batchesInit .createNew scratchSize) store).1.2⟩ := by
    rw [Host.call]
    simp only [Act.perform, answering, ran]
    rfl
  rw [host]
  have outcome : (Prog.run device (batchesOpen batchesInit .createNew scratchSize) store).1 =
      (.ok (), (Prog.run device (batchesOpen batchesInit .createNew scratchSize) store).1.2) := Prod.ext result rfl
  rw [outcome] at whole
  exact whole

/-- A pair just created on a machine without files. -/
def fresh : Host :=
  (Host.call ⟨⟨none, none, List.replicate 16 7⟩, batchesInit⟩ (.openPair .createNew batchScratch)).2

theorem fresh_created : Created fresh := call_created rfl (by decide +kernel)

end Timelite.System
