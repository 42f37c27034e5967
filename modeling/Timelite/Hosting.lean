import Timelite.Grounding
import Timelite.Owning
import Timelite.Simulation
import Timelite.Soundness

/-!
A machine that runs the library over the system calls: calls that return, processes
that die inside one, power cuts. Its runs are runs of the host over the backend, and
its process has the descriptors of an open handle and no others.
-/
namespace Timelite.Hosting
open ByteFile Program Durable Codec BackendLaws Lowering Syscalls Native Grounding Crashes Contents BatchApi Creating System Owning Simulation
open Timelite.Backend hiding fileRead fileWrite fileSize fileTruncate fileSync fileProvision fileLock

structure Machine where
  kernel : Kernel
  handles : Handles
  db : Batches

/-- What a power cut leaves of the files, in a machine without processes. -/
def rebooted (store : Store) (d w : Bytes) : Store :=
  ⟨store.database.map fun _ => settled d, store.wal.map fun _ => settled w, store.entropy⟩

def NativeSurviving (store : Store) (d w : Bytes) : Prop :=
  Survives (nativeTearing .database) (store.disk .database) d ∧ Survives (nativeTearing .wal) (store.disk .wal) w

/-- A call of the library over the system calls. -/
def Machine.Calls (config : Config) (machine : Machine) (act : Act)
    (outcome : Option (Option ((Except Error Answer × Batches) × Handles))) (last : Kernel) : Prop :=
  Performs (Native.Step config.path) (lower (implement config) (act.perform machine.db) machine.handles) machine.kernel outcome last

/-- The steps of a machine. A call may repeat interrupted system calls any number of times. -/
inductive Machine.Step (config : Config) : Machine → System.Event → Machine → Prop where
  | returned {machine : Machine} {act : Act} {result : Except Error Answer} {db : Batches} {handles : Handles} {last : Kernel} (fuel : Nat)
      (calls : machine.Calls { config with fuel } act (some (some ((result, db), handles))) last) :
      Step config machine (.returned act result) ⟨last, handles, db⟩
  | restarted {machine : Machine} {act : Act} {outcome : Option (Option ((Except Error Answer × Batches) × Handles))} {last : Kernel}
      (fuel : Nat) (calls : machine.Calls { config with fuel } act outcome last) (cut : outcome.join = none) :
      Step config machine (.restarted act) ⟨idle last.store, .closed, batchesInit⟩
  | crashed {machine : Machine} {act : Act} {outcome : Option (Option ((Except Error Answer × Batches) × Handles))} {last : Kernel}
      {d w : Bytes} (fuel : Nat) (calls : machine.Calls { config with fuel } act outcome last) (cut : outcome.join = none)
      (survives : NativeSurviving last.store d w) :
      Step config machine (.crashed act) ⟨idle (rebooted last.store d w), .closed, batchesInit⟩

section Files
variable {store after : Store} {call : Call} {α : Type}

/-- Both files of the pair. -/
def Paired (store : Store) : Prop := ∀ file, (store.disk? file).isSome = true

theorem paired_put {file : File} {disk : Disk} (paired : Paired store) : Paired (store.put file disk) := by
  intro other
  by_cases same : other = file
  · rw [same, put_found]
    rfl
  · rw [disk_put_other same]
    exact paired other

theorem paired_serve (paired : Paired store) : Paired (serve call store).2 := by
  cases call with
  | «open» file =>
      rw [show serve (.open file) store = (.ok (), store) from if_pos (paired file)]
      exact paired
  | create file =>
      rw [show serve (.create file) store = (.error .eexist, store) from if_pos (paired file)]
      exact paired
  | write | truncate | sync | provision => exact paired_put paired
  | lock | identity | read | size | close => exact paired

theorem paired_fault {reply : Reply call} (paired : Paired store) (fault : Fault call store reply after) : Paired after := by
  cases fault with
  | before => exact paired
  | write | truncate | sync | provision | create => exact paired_put paired

/-- No execution removes a file. -/
theorem exec_paired {program : Prog Reply α} {outcome : Option α} (paired : Paired store)
    (execution : Exec device program store outcome after) : Paired after := by
  induction execution with
  | done | stop => exact paired
  | serve rest ih => exact ih (paired_serve paired)
  | fail fault rest ih => exact ih (paired_fault paired fault)

theorem below_rebooted {low high : Store} {d w : Bytes} (below : Below low high) (paired : Paired low) :
    Below (rebooted low d w) (booted high d w) := by
  obtain ⟨database, found⟩ := Option.isSome_iff_exists.mp (paired .database)
  obtain ⟨wal, found'⟩ := Option.isSome_iff_exists.mp (paired .wal)
  simp only [Store.disk?] at found found'
  have same : rebooted low d w = booted high d w := by
    rw [rebooted, booted, found, found', below.entropy]
    rfl
  rw [same]
  exact below_refl _

end Files

section Tracking
variable {config : Config} {hold : Hold} {handles : Handles} {kernel : Kernel}

/-- The handles that are open are those of the files held. -/
def Tracks (hold : Hold) (handles : Handles) : Prop := ∀ file, hold.held file = true ↔ 0 ≤ (handles file).fd

theorem tracks_none : Tracks Hold.none Handles.closed := fun _ => ⟨nofun, fun valid => absurd valid closed_below⟩

theorem meets_keeping {α : Type} {sys : Sys α} {post : Except Errno α × Handles → Kernel → Prop}
    (here : ∀ result last, post (result, handles) last) :
    Meets (Native.Step config.path) (fun _ => True) post (keeping handles sys) kernel :=
  meets_bind (fun _ _ _ => ⟨fun _ => trivial, fun _ _ => trivial⟩ : Meets _ _ (fun _ _ => True) sys kernel) fun result last _ =>
    meets_done trivial (here result last)

theorem tracks_opened {file : File} {fd : Int} (tracks : Tracks hold handles) (valid : 0 ≤ fd) {held : File → Bool}
    (same : held = Function.update hold.held file true) (other : File) :
    held other = true ↔ 0 ≤ (Function.update handles file (⟨fd⟩ : TimeliteFile) other).fd := by
  rw [same]
  by_cases which : other = file
  · rw [which, Function.update_self, Function.update_self]
    exact ⟨fun _ => valid, fun _ => rfl⟩
  · rw [Function.update_of_ne which, Function.update_of_ne which]
    exact tracks other

theorem tracks_closed {file : File} {handle : TimeliteFile} (tracks : Tracks hold handles) (shut : ¬ 0 ≤ handle.fd) {held : File → Bool}
    (same : held = Function.update hold.held file false) (other : File) :
    held other = true ↔ 0 ≤ (Function.update handles file handle other).fd := by
  rw [same]
  by_cases which : other = file
  · rw [which, Function.update_self, Function.update_self]
    exact ⟨nofun, fun valid => absurd valid shut⟩
  · rw [Function.update_of_ne which, Function.update_of_ne which]
    exact tracks other

theorem acquiring_tracks {file : File} {exclusive : Bool} (apart : config.path .database ≠ config.path .wal) (tracks : Tracks hold handles)
    {next : Except Errno Unit → Hold} (opened : (next (.ok ())).held = Function.update hold.held file true)
    (failed : ∀ code, (next (.error code)).held = hold.held) :
    Meets (Native.Step config.path) (fun _ => True) (fun result _ => Tracks (next result.1) result.2)
      (acquiring handles (Function.update handles file) (openFile config.fuel (handles file) (config.path file) exclusive)) kernel := by
  refine meets_bind (meets_mono (open_enters apart) (fun _ _ => trivial) fun _ _ here => here) ?_
  intro result last here
  cases result with
  | ok handle =>
      obtain ⟨_, valid, _, _, _⟩ := here
      exact meets_done trivial (tracks_opened tracks valid opened)
  | error code =>
      refine meets_done trivial fun file => ?_
      rw [failed]
      exact tracks file

/-- Each function keeps what is held in step with the handles. -/
theorem implement_tracks (apart : config.path .database ≠ config.path .wal) (call : Call) (tracks : Tracks hold handles) :
    Meets (Native.Step config.path) (fun _ => True) (fun result _ => Tracks (owning.next hold call result.1) result.2)
      (implement config call handles) kernel := by
  cases call with
  | «open» file => exact acquiring_tracks apart tracks rfl fun _ => rfl
  | create file => exact acquiring_tracks apart tracks rfl fun _ => rfl
  | lock file =>
      refine meets_keeping fun result last => ?_
      cases result <;> exact tracks
  | write file offset bytes =>
      refine meets_keeping fun result last other => ?_
      have same : (owning.next hold (.write file offset bytes) result).held = hold.held := by
        change (if offset < 32 then _ else hold).held = hold.held
        split <;> rfl
      rw [same]
      exact tracks other
  | identity | read | size | truncate | sync | provision =>
      refine meets_keeping fun result last => ?_
      cases result <;> exact tracks
  | close file =>
      change Meets _ _ _ (releasing handles file) kernel
      unfold releasing fileClose
      by_cases shut : (handles file).fd < 0
      · rw [if_pos shut]
        exact meets_done trivial (tracks_closed tracks (not_le.mpr shut) rfl)
      · rw [if_neg shut]
        refine meets_ask trivial fun reply last step => ?_
        cases reply with
        | ok _ => exact meets_done trivial (tracks_closed tracks closed_below rfl)
        | error error => exact meets_done trivial (tracks_closed tracks closed_below rfl)

end Tracking

section Simulating
variable {config : Config} {machine : Machine} {host : Host} {act : Act} {fuel : Nat} {last : Kernel}

/-- A machine and the host that it stands for. -/
structure Stands (machine : Machine) (host : Host) : Prop where
  same : host.db = machine.db
  below : Below machine.kernel.store host.store
  held : Held machine.handles machine.kernel
  paired : Paired host.store
  rests : ∃ hold, Rests hold machine.db ∧ Tracks hold machine.handles

theorem rests_init : Rests Hold.none batchesInit := ⟨rfl, rfl, rfl, nofun, rfl⟩

theorem stands_idle {store store' : Store} (below : Below store store') (paired : Paired store') :
    Stands ⟨idle store, .closed, batchesInit⟩ ⟨store', batchesInit⟩ :=
  ⟨rfl, below, held_idle store, paired, _, rests_init, tracks_none⟩

/-- The process has a descriptor for each file of an open handle and no other. -/
def Descriptors (machine : Machine) : Prop :=
  ∀ fd descriptor, machine.kernel.table fd = some descriptor ↔
    machine.db.database = true ∧ ∃ file, descriptor = .file file ∧ (machine.handles file).fd = fd

theorem Stands.descriptors (stands : Stands machine host) : Descriptors machine := by
  obtain ⟨hold, rests, tracks⟩ := stands.rests
  have both : ∀ file, 0 ≤ (machine.handles file).fd ↔ machine.db.database = true := fun file => by
    rw [← tracks file]
    cases file with
    | database => rw [rests.database]
    | wal => rw [rests.wal]
  intro fd descriptor
  rw [stands.held.table]
  constructor
  · rintro ⟨file, rfl, sits, valid⟩
    exact ⟨(both file).mp (by rw [sits]; exact valid), file, rfl, sits⟩
  · rintro ⟨opened, file, rfl, sits⟩
    exact ⟨file, rfl, sits, by rw [← sits]; exact (both file).mpr opened⟩

/-- A call over the system calls is one over the backend. -/
theorem calls_exec (apart : config.path .database ≠ config.path .wal) (large : 64 ≤ config.ssizeMax) (same : host.db = machine.db)
    (below : Below machine.kernel.store host.store) (held : Held machine.handles machine.kernel)
    {outcome : Option (Option ((Except Error Answer × Batches) × Handles))} (calls : machine.Calls config act outcome last) :
    (outcome.join = none → ∃ after, Exec device (act.perform host.db) host.store none after ∧ Below last.store after) ∧
      ∀ value, outcome.join = some value → ∃ after, Exec device (act.perform host.db) host.store (some value.1) after ∧
        Below last.store after ∧ Held value.2 last := by
  rw [same]
  exact program_realizes apart large ⟨below, held⟩ _ _ calls

theorem machine_simulates (apart : config.path .database ≠ config.path .wal) (large : 64 ≤ config.ssizeMax) :
    Simulates (Machine.Step config) System.Step Stands := by
  intro machine event next host stands step
  have below := stands.below
  have paired : ∀ {outcome : Option (Except Error Answer × Batches)} {after : Store} {act : Act},
      Exec device (act.perform host.db) host.store outcome after → Paired after := fun execution => exec_paired stands.paired execution
  cases step with
  | @returned act result db handles last fuel calls =>
      obtain ⟨after, execution, below', held⟩ :=
        (@calls_exec { config with fuel } _ _ _ _ apart large stands.same below stands.held _ calls).2 _ rfl
      obtain ⟨hold, rests, tracks⟩ := stands.rests
      obtain ⟨hold', rests', tracks'⟩ := (lower_follows (perform_follows rests act) (fun hold call handles low tracks _ =>
        @implement_tracks { config with fuel } hold handles low apart call tracks) tracks _ _ calls).2 _ rfl
      exact ⟨⟨after, db⟩, .returned execution, rfl, below', held, paired execution, hold', rests', tracks'⟩
  | @restarted act outcome last fuel calls cut =>
      obtain ⟨after, execution, below'⟩ := (@calls_exec { config with fuel } _ _ _ _ apart large stands.same below stands.held _ calls).1 cut
      exact ⟨⟨after, batchesInit⟩, .restarted execution, stands_idle below' (paired execution)⟩
  | @crashed act outcome last d w fuel calls cut survives =>
      obtain ⟨after, execution, below'⟩ := (@calls_exec { config with fuel } _ _ _ _ apart large stands.same below stands.held _ calls).1 cut
      have kept : Surviving after d w := ⟨below'.survives _ _ survives.1, below'.survives _ _ survives.2⟩
      have files : Paired last.store := fun file => (below'.present file).trans (paired execution file)
      refine ⟨⟨booted after d w, batchesInit⟩, .crashed execution kept, stands_idle (below_rebooted below' files) fun file => ?_⟩
      cases file <;> rfl

theorem runs_run {start host : Host} {events : List System.Event} (runs : Runs System.Step start events host) :
    System.Run start events host := by
  induction runs with
  | start => exact .start _
  | step _ after ih => exact .step ih after

theorem created_paired {start : Host} (created : Created start) : Paired start.store := by
  obtain ⟨identity, live⟩ := Soundness.created_live created
  have safe := @Refinement.live_safe (fun _ => True) _ _ _ ⟨.empty, createdManifests, 1⟩ live trivial
  intro file
  cases file with
  | database => exact safe.database
  | wal => exact safe.wal

/-- The machine right after the CREATE_NEW open of a pair returned 0. -/
def Machine.Created (config : Config) (machine : Machine) : Prop :=
  ∃ origin scratchSize fuel, origin.entropy.length = 16 ∧
    Machine.Calls { config with fuel } ⟨idle origin, .closed, batchesInit⟩ (.openPair .createNew scratchSize)
      (some (some ((.ok .none, machine.db), machine.handles))) machine.kernel

theorem created_stands (apart : config.path .database ≠ config.path .wal) (large : 64 ≤ config.ssizeMax)
    (created : machine.Created config) : ∃ start, System.Created start ∧ Stands machine start := by
  obtain ⟨origin, scratchSize, fuel, wide, calls⟩ := created
  obtain ⟨after, execution, below, held⟩ := (@calls_exec { config with fuel } ⟨idle origin, .closed, batchesInit⟩ ⟨origin, batchesInit⟩ _ _
    apart large rfl (below_refl origin) (held_idle origin) _ calls).2 _ rfl
  obtain ⟨hold, rests, tracks⟩ := (lower_follows (perform_follows rests_init (.openPair .createNew scratchSize))
    (fun hold call handles low tracks _ => @implement_tracks { config with fuel } hold handles low apart call tracks) tracks_none _ _ calls).2 _ rfl
  obtain ⟨inner, inside, shape⟩ := Soundness.exec_answering execution
  cases inner with
  | none => cases shape
  | some value =>
      obtain ⟨result, db⟩ := value
      obtain ⟨answer, same⟩ := Prod.mk.inj (Option.some.inj shape)
      cases result with
      | error error => cases answer
      | ok _ =>
          simp only at same
          subst same
          have start : System.Created ⟨after, machine.db⟩ := ⟨batchesInit, origin, scratchSize, wide, inside⟩
          exact ⟨_, start, rfl, below, held, created_paired start, hold, rests, tracks⟩

/-- Every run of the machine since a creation, with whatever the system calls return,
is a run of the host over the backend, and leaks no descriptor. -/
theorem native_runs (apart : config.path .database ≠ config.path .wal) (large : 64 ≤ config.ssizeMax)
    {start : Machine} {events : List System.Event} (created : start.Created config) (runs : Runs (Machine.Step config) start events machine) :
    ∃ first host, System.Created first ∧ System.Run first events host ∧ host.db = machine.db ∧
      Below machine.kernel.store host.store ∧ Descriptors machine := by
  obtain ⟨first, created', stands⟩ := created_stands apart large created
  obtain ⟨host, run, stands'⟩ := runs_simulate (machine_simulates apart large) runs stands
  exact ⟨first, host, created', runs_run run, stands'.same, stands'.below, stands'.descriptors⟩

end Simulating

section Working
variable {config : Config} {machine next : Machine} {act : Act} {result : Except Error Answer}

def working (config : Config) : Program.Backend SysReply Kernel := ⟨work config.path, fun _ _ _ _ => False⟩

/-- A call on the working kernel. -/
def Machine.call (config : Config) (machine : Machine) (act : Act) : Option (Except Error Answer × Machine) :=
  let ran := Prog.run (working config) (lower (implement config) (act.perform machine.db) machine.handles) machine.kernel
  ran.1.map fun ended => (ended.1.1, ⟨ran.2, ended.2, ended.1.2⟩)

theorem call_calls (apart : config.path .database ≠ config.path .wal) (called : machine.call config act = some (result, next)) :
    machine.Calls config act (some (some ((result, next.db), next.handles))) next.kernel := by
  have performs := @performs_run _ _ _ _ (Native.Step config.path) (working config) (fun call kernel => work_steps apart call kernel)
    (lower (implement config) (act.perform machine.db) machine.handles) machine.kernel
  obtain ⟨ended, ran, shape⟩ := Option.map_eq_some_iff.mp called
  rw [ran] at performs
  cases shape
  exact performs

/-- A machine without files, whose transfers move at most one slot at a time. -/
def slotwise : Config where
  path
    | .database => [100, 98]
    | .wal => [119, 97, 108]
  ssizeMax := 64
  fuel := 8

def bare : Machine := ⟨idle ⟨none, none, List.replicate 16 7⟩, .closed, batchesInit⟩

def firstAnswers : Option (Except Error Answer × Except Error Answer) :=
  (bare.call slotwise (.openPair .createNew batchScratch)).bind fun created =>
    (created.2.call slotwise (.append [⟨1, 5, 7⟩] batchScratch)).map fun appended => (created.1, appended.1)

theorem first_answers : firstAnswers = some (.ok .none, .ok (.sequence 1)) := by decide +kernel

theorem native_runs_appended : ∃ start machine, start.Created slotwise ∧
    Runs (Machine.Step slotwise) start [.returned (.append [⟨1, 5, 7⟩] batchScratch) (.ok (.sequence 1))] machine ∧
      ∃ first host, System.Created first ∧ System.Run first [.returned (.append [⟨1, 5, 7⟩] batchScratch) (.ok (.sequence 1))] host ∧
        host.db = machine.db ∧ Below machine.kernel.store host.store ∧ Descriptors machine := by
  obtain ⟨⟨answer, start⟩, created, rest⟩ := Option.bind_eq_some_iff.mp first_answers
  obtain ⟨⟨answer', machine⟩, appended, same⟩ := Option.map_eq_some_iff.mp rest
  cases same
  have apart : slotwise.path .database ≠ slotwise.path .wal := by decide
  have begun : start.Created slotwise := ⟨_, _, slotwise.fuel, by decide, call_calls apart created⟩
  have run : Runs (Machine.Step slotwise) start [.returned (.append [⟨1, 5, 7⟩] batchScratch) (.ok (.sequence 1))] machine :=
    .step (.start start) (.returned slotwise.fuel (call_calls apart appended))
  exact ⟨start, machine, begun, run, native_runs apart (Nat.le_refl 64) begun run⟩

end Working

end Timelite.Hosting
