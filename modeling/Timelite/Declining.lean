import Timelite.Porting
import Timelite.Hosting

/-!
The batches API on Windows. Open asks for nothing that changes a file before an
identity or a provisioning has succeeded, and on Windows neither ever does: it fails
closed, in every run of a process.
-/
namespace Timelite.Declining
open ByteFile Program Durable Codec BackendLaws Lowering Reader BatchApi Images Timelite.System Objects Porting Simulation
open Timelite.Backend hiding fileRead fileWrite fileSize fileTruncate fileSync fileLock
open Win32 (WinReply WinFile WinHandles Config Win implement openFile releasing fileClose)
open Owning (Hold Rests owning)

section Gate
variable {α β : Type} {post : α → Prop} {post' : β → Prop} {db : Batches}

/-- Neither served nor failed it changes a file. -/
def Quiet (call : Call) : Prop :=
  (∀ store, (serve call store).2 = store) ∧ ∀ store reply after, Fault call store reply after → after = store

def permits (passed : Bool) (call : Call) : Prop := passed = true ∨ Quiet call ∨ ∃ file, call = .provision file

def passes (passed : Bool) : (call : Call) → Reply call → Bool
  | .identity, .ok _ | .provision _, .ok _ => true
  | _, _ => passed

/-- The phase is whether an identity was given or a file provisioned. -/
def gate : Discipline Reply Bool := ⟨permits, passes⟩

/-- Until then the program only looks, and where it returns before `post` holds. -/
def Gated (post : α → Prop) (program : Prog Reply α) : Prop := program.Follows gate (fun passed value => passed = true ∨ post value) false

theorem passed_follows (program : Prog Reply α) : program.Follows gate (fun passed value => passed = true ∨ post value) true := by
  induction program with
  | done value => exact .inl rfl
  | ask call next ih =>
      refine ⟨.inl rfl, fun reply => ?_⟩
      have still : gate.next true call reply = true := by
        cases call <;> cases reply <;> rfl
      rw [still]
      exact ih reply

theorem gated_done {value : α} (here : post value) : Gated post (.done value) := .inr here

theorem gated_ask {call : Call} {next : Reply call → Prog Reply α} (quiet : Quiet call)
    (rest : ∀ reply, Gated post (next reply)) : Gated post (.ask call next) := by
  refine ⟨.inr (.inl quiet), fun reply => ?_⟩
  cases passed : gate.next false call reply with
  | true => exact passed_follows _
  | false => exact rest reply

-- Only the refusal of an identity or a provisioning stays in front of the gate.
theorem gated_refusal {call : Call} {next : Reply call → Prog Reply α} (asks : call = .identity ∨ ∃ file, call = .provision file)
    (rest : ∀ code, Gated post (next (.error code))) : Gated post (.ask call next) := by
  refine ⟨?_, fun reply => ?_⟩
  · rcases asks with rfl | provision
    · refine .inr (.inl ⟨fun store => rfl, fun store reply after fault => ?_⟩)
      cases fault
      rfl
    · exact .inr (.inr provision)
  · rcases asks with rfl | ⟨file, rfl⟩
    all_goals
      cases reply with
      | ok answer => exact passed_follows _
      | error code => exact rest code

theorem gated_bind {program : Prog Reply α} {next : α → Prog Reply β} (front : Gated post program)
    (rest : ∀ value, post value → Gated post' (next value)) : Gated post' (program.bind next) := by
  refine follows_bind front fun passed value here => ?_
  cases passed with
  | true => exact passed_follows _
  | false => exact rest value (here.resolve_left nofun)

/-- A program that only reads. -/
theorem gated_reads {program : Io α} (reads : Reads program) : Gated (fun _ => True) program := by
  have observes := reads.observes
  clear reads
  induction program with
  | done value => exact .inr trivial
  | ask call next ih =>
      have quiet : Quiet call := ⟨observes.1, fun store reply after fault => (observes.2.1 store reply after fault).1⟩
      exact gated_ask quiet fun reply => ih reply (observes.2.2 reply)

theorem open_quiet (file : File) : Quiet (.open file) := by
  refine ⟨fun store => ?_, fun store reply after fault => ?_⟩
  · simp only [serve]
    split <;> rfl
  · cases fault
    rfl

theorem close_quiet (file : File) : Quiet (.close file) := by
  refine ⟨fun store => rfl, fun store reply after fault => ?_⟩
  cases fault
  rfl

/-- An error, and the handle as it was. -/
def Declines (db : Batches) (result : Except Error α × Batches) : Prop := (∃ error, result.1 = .error error) ∧ result.2 = db

theorem release_gated (owned : Owned) : Gated (fun _ => True) (release owned) := by
  have database : Gated (fun _ => True) (if owned.database then .ask (.close .database) fun _ => .done () else .done () : Prog Reply Unit) := by
    split
    · exact gated_ask (close_quiet _) fun _ => gated_done trivial
    · exact gated_done trivial
  unfold release
  simp only
  split
  · exact gated_ask (close_quiet _) fun _ => database
  · exact database

theorem fail_gated (db : Batches) (owned : Owned) (error : Error) : Gated (Declines db) (failOpen db owned error) :=
  gated_bind (release_gated owned) fun _ _ => gated_done ⟨⟨error, rfl⟩, rfl⟩

-- A new pair is behind the gate: its identity comes first.
theorem create_gated (mode : OpenMode) : Gated (fun result => ∃ error, result.1 = .error error) (createPair mode) := by
  refine gated_ask (open_quiet _) fun reply => ?_
  cases reply with
  | ok _ => exact gated_done ⟨_, rfl⟩
  | error code =>
      simp only
      split
      · exact gated_done ⟨_, rfl⟩
      · exact gated_refusal (.inl rfl) fun code => gated_done ⟨_, rfl⟩

theorem acquire_gated (mode : OpenMode) :
    Gated (fun result => result.1 = .ok false ∨ ∃ error, result.1 = .error error) (acquire mode) := by
  have creates := follows_mono (create_gated mode) fun passed result here => here.imp_right
    (.inr : (∃ error, result.1 = .error error) → result.1 = .ok false ∨ ∃ error, result.1 = .error error)
  unfold acquire
  split
  · exact creates
  refine gated_ask (open_quiet _) fun reply => ?_
  cases reply with
  | ok _ => exact gated_done (.inl rfl)
  | error code =>
      simp only
      split
      · exact creates
      · exact gated_done (.inr ⟨_, rfl⟩)

theorem companion_gated : Gated (fun _ => True) openCompanion := by
  refine gated_bind (gated_reads (reads_bind (reads_lock _) fun _ => reads_bind (reads_pairHeader _ _) fun _ => reads_pure _)) fun result _ => ?_
  cases result with
  | error error => exact gated_done trivial
  | ok _ =>
      refine gated_ask (open_quiet _) fun reply => ?_
      cases reply <;> exact gated_done trivial

theorem recover_gated : Gated (fun result => ∃ error, result = .error error) (do let v ← validatePair; recoverPair v : Io Batches) := by
  refine gated_bind (gated_reads reads_validatePair) fun result _ => ?_
  cases result with
  | error error => exact gated_done ⟨error, rfl⟩
  | ok v => exact gated_refusal (.inr ⟨.database, rfl⟩) fun code => gated_done ⟨_, rfl⟩

theorem open_gated (closed : db.database = false ∧ db.wal = false) (mode : OpenMode) (scratchSize : Nat) :
    Gated (Declines db) (batchesOpen db mode scratchSize) := by
  by_cases small : scratchSize < batchScratch
  · rw [Opening.open_small closed small]
    exact gated_done ⟨⟨_, rfl⟩, rfl⟩
  rw [Opening.open_acquires closed (Nat.le_of_not_lt small)]
  refine gated_bind (acquire_gated mode) fun result here => ?_
  obtain ⟨result, owned⟩ := result
  cases result with
  | error error => exact fail_gated db owned error
  | ok created =>
      obtain rfl : created = false := by simpa using here
      refine gated_bind companion_gated fun result _ => ?_
      obtain ⟨result, owned⟩ := result
      cases result with
      | error error => exact fail_gated db owned error
      | ok _ =>
          refine gated_bind recover_gated fun result here => ?_
          obtain ⟨error, rfl⟩ := here
          exact fail_gated db owned error

/-- Every call on a closed handle. -/
theorem perform_gated (act : Act) : Gated (Declines batchesInit) (act.perform batchesInit) := by
  by_cases closing : act = .close
  · subst closing
    exact gated_done ⟨⟨_, rfl⟩, rfl⟩
  by_cases opening : ∃ mode scratchSize, act = .openPair mode scratchSize
  · obtain ⟨mode, scratchSize, rfl⟩ := opening
    refine gated_bind (open_gated ⟨rfl, rfl⟩ mode scratchSize) fun result here => ?_
    obtain ⟨result, db⟩ := result
    obtain ⟨⟨error, rfl⟩, rfl⟩ := here
    exact gated_done ⟨⟨error, rfl⟩, rfl⟩
  · have ready : batchReady batchesInit = .error (.errno .ebadf) := rfl
    rw [Soundness.refused_perform ready closing fun mode scratchSize same => opening ⟨mode, scratchSize, same⟩]
    exact gated_done ⟨⟨_, rfl⟩, rfl⟩

end Gate

section Lowered
variable {volume : Volume} {config : Config} {handles : WinHandles} {space last : Space} {store after : Store} {call : Call} {α : Type}
  {post : α → Prop} {program : Prog Reply α}

theorem exec_quiet {outcome : Option (Reply call)} (quiet : Quiet call) (execution : Exec device (.ask call .done) store outcome after) :
    after = store := by
  cases execution with
  | stop => rfl
  | serve rest => exact (exec_done device rest).1.trans (quiet.1 store)
  | fail fault rest => exact (exec_done device rest).1.trans (quiet.2 _ _ _ fault)

-- Windows gives no identity and provisions no file.
theorem refused_meets (asks : call = .identity ∨ ∃ file, call = .provision file) (start : related (some handles) space store) :
    Meets (Objects.Step volume) (fun last => related none last store)
      (fun result last => (∃ code, result.1 = .error code) ∧ related (some result.2) last store) (implement config call handles) space := by
  rcases asks with rfl | ⟨file, rfl⟩
  · exact meets_done start.1 ⟨⟨_, rfl⟩, start⟩
  · exact meets_done start.1 ⟨⟨_, rfl⟩, start⟩

theorem quiet_meets (named : ∀ file, volume.named (volume.widen (config.path file)) = some file) (large : 64 ≤ config.limit) (quiet : Quiet call)
    (start : related (some handles) space store) :
    Meets (Objects.Step volume) (fun last => related none last store) (fun result last => related (some result.2) last store)
      (implement config call handles) space := by
  refine meets_mono (@implement_realizes volume config handles space store call named large start) ?_ ?_
  · rintro last ⟨after, execution, left⟩
    obtain rfl := exec_quiet quiet execution
    exact left
  · rintro result last ⟨after, execution, left⟩
    obtain rfl := exec_quiet quiet execution
    exact left

/-- On Windows a program stays in front of the gate. -/
theorem gated_declines (named : ∀ file, volume.named (volume.widen (config.path file)) = some file) (large : 64 ≤ config.limit)
    (gated : Gated post program) (start : related (some handles) space store) :
    Meets (Objects.Step volume) (fun last => related none last store)
      (fun result last => post result.1 ∧ related (some result.2) last store) (lower (implement config) program handles) space := by
  induction program generalizing handles space with
  | done value => exact meets_done start.1 ⟨Or.resolve_left gated nofun, start⟩
  | ask call next ih =>
      by_cases asks : call = .identity ∨ ∃ file, call = .provision file
      · refine meets_bind (refused_meets asks start) ?_
        rintro ⟨reply, handles'⟩ middle ⟨⟨code, same⟩, here⟩
        simp only at same
        subst same
        have rest := gated.2 (.error code)
        rcases asks with rfl | ⟨file, rfl⟩ <;> exact ih _ rest here
      · have quiet : Quiet call := by
          rcases gated.1 with passed | quiet | provision
          · cases passed
          · exact quiet
          · exact absurd (.inr provision) asks
        refine meets_bind (quiet_meets named large quiet start) fun result middle here => ?_
        have rest := gated.2 result.1
        have still : gate.next false call result.1 = false := by
          cases call with
          | identity => exact absurd (.inl rfl) asks
          | provision file => exact absurd (.inr ⟨file, rfl⟩) asks
          | _ => rfl
        rw [still] at rest
        exact ih _ rest here

end Lowered

section Tracking
variable {volume : Volume} {config : Config} {hold : Hold} {handles : WinHandles} {space : Space}

/-- The handles that are open are those of the files held. -/
def Tracks (hold : Hold) (handles : WinHandles) : Prop := Hosting.Tracks hold (descriptors handles)

theorem tracks_idle : Tracks Hold.none WinHandles.closed := fun _ => ⟨nofun, fun valid => absurd valid Grounding.closed_below⟩

theorem meets_keeping {α : Type} {sys : Win α} {post : Except Errno α × WinHandles → Space → Prop}
    (here : ∀ result last, post (result, handles) last) :
    Meets (Objects.Step volume) (fun _ => True) post (keeping handles sys) space :=
  meets_bind (fun _ _ _ => ⟨fun _ => trivial, fun _ _ => trivial⟩ : Meets _ _ (fun _ _ => True) sys space) fun result last _ =>
    meets_done trivial (here result last)

theorem tracks_closed {file : File} (tracks : Tracks hold handles) {handle : WinFile} (shut : (lowered handle).fd = -1) {held : File → Bool}
    (same : held = Function.update hold.held file false) (other : File) :
    held other = true ↔ 0 ≤ (descriptors (Function.update handles file handle) other).fd := by
  rw [descriptors_update]
  exact Hosting.tracks_closed tracks (by rw [shut]; decide) same other

theorem acquiring_tracks {file : File} {createNew : Bool} (named : ∀ file, volume.named (volume.widen (config.path file)) = some file)
    (tracks : Tracks hold handles) {next : Except Errno Unit → Hold} (opened : (next (.ok ())).held = Function.update hold.held file true)
    (failed : ∀ code, (next (.error code)).held = hold.held) :
    Meets (Objects.Step volume) (fun _ => True) (fun result _ => Tracks (next result.1) result.2)
      (acquiring handles (Function.update handles file) (openFile (handles file) (config.path file) createNew)) space := by
  refine meets_bind (meets_mono (open_enters (named file)) (fun _ _ => trivial) fun _ _ here => here) ?_
  intro result last here
  cases result with
  | ok handle =>
      obtain ⟨_, valid, _, _, _⟩ := here
      refine meets_done trivial fun other => ?_
      rw [descriptors_update]
      exact Hosting.tracks_opened tracks valid opened other
  | error code =>
      refine meets_done trivial fun file => ?_
      rw [failed]
      exact tracks file

/-- Each function keeps what is held in step with the handles. -/
theorem implement_tracks (named : ∀ file, volume.named (volume.widen (config.path file)) = some file) (call : Call) (tracks : Tracks hold handles) :
    Meets (Objects.Step volume) (fun _ => True) (fun result _ => Tracks (owning.next hold call result.1) result.2)
      (implement config call handles) space := by
  cases call with
  | «open» file => exact acquiring_tracks named tracks rfl fun _ => rfl
  | create file => exact acquiring_tracks named tracks rfl fun _ => rfl
  | lock file =>
      refine meets_keeping fun result last => ?_
      cases result <;> exact tracks
  | write file offset bytes =>
      refine meets_keeping fun result last other => ?_
      have same : (owning.next hold (.write file offset bytes) result).held = hold.held := by
        change (if offset < 32 then _ else hold).held = hold.held
        split <;> rfl
      rw [same]
      exact tracks other
  | identity | read | size | truncate | sync | provision =>
      refine meets_keeping fun result last => ?_
      cases result <;> exact tracks
  | close file =>
      change Meets _ _ _ (releasing handles file) space
      unfold releasing fileClose
      cases found : (handles file).handle with
      | object number =>
          refine meets_ask trivial fun reply last step => ?_
          cases reply with
          | ok _ => exact meets_done trivial (tracks_closed tracks rfl rfl)
          | error error => exact meets_done trivial (tracks_closed tracks rfl rfl)
      | null | invalid =>
          have shut : (lowered (handles file)).fd = -1 := by
            rw [lowered, found]
            rfl
          exact meets_done trivial (tracks_closed tracks shut rfl)

end Tracking

section Machines
variable {volume : Volume} {config : Config} {machine next : Machine} {store : Store} {events : List System.Event}

/-- A process on Windows that runs the library. -/
structure Machine where
  space : Space
  handles : WinHandles
  db : Batches

def Machine.boot (store : Store) : Machine := ⟨Objects.fresh store, .closed, batchesInit⟩

/-- A call of the library over the Win32 calls. -/
def Machine.Calls (volume : Volume) (config : Config) (machine : Machine) (act : Act)
    (outcome : Option (Option ((Except Error Answer × Batches) × WinHandles))) (last : Space) : Prop :=
  Performs (Objects.Step volume) (lower (implement config) (act.perform machine.db) machine.handles) machine.space outcome last

/-- Calls that return, processes that end inside one, power cuts. -/
inductive Machine.Step (volume : Volume) (config : Config) : Machine → System.Event → Machine → Prop where
  | returned {machine : Machine} {act : Act} {result : Except Error Answer} {db : Batches} {handles : WinHandles} {last : Space}
      (calls : machine.Calls volume config act (some (some ((result, db), handles))) last) :
      Step volume config machine (.returned act result) ⟨last, handles, db⟩
  | restarted {machine : Machine} {act : Act} {outcome : Option (Option ((Except Error Answer × Batches) × WinHandles))} {last : Space}
      (calls : machine.Calls volume config act outcome last) (cut : outcome.join = none) :
      Step volume config machine (.restarted act) (.boot last.store)
  | crashed {machine : Machine} {act : Act} {outcome : Option (Option ((Except Error Answer × Batches) × WinHandles))} {last : Space}
      {d w : Bytes} (calls : machine.Calls volume config act outcome last) (cut : outcome.join = none)
      (survives : Hosting.NativeSurviving last.store d w) : Step volume config machine (.crashed act) (.boot (Hosting.rebooted last.store d w))

/-- Files that are durable as they are, present or not. -/
def still (d w : Option Bytes) (entropy : Bytes) : Store := ⟨d.map settled, w.map settled, entropy⟩

/-- The machine stands where it began. -/
structure Declined (store : Store) (machine : Machine) : Prop where
  db : machine.db = batchesInit
  related : related (some machine.handles) machine.space store
  rests : ∃ hold, Rests hold batchesInit ∧ Tracks hold machine.handles

theorem boot_declined {low : Store} (below : Native.Below low store) : Declined store (.boot low) :=
  ⟨rfl, ⟨below, Grounding.held_idle low⟩, _, Hosting.rests_init, tracks_idle⟩

-- What a crash leaves of files on which nothing is pending.
theorem rebooted_still {low : Store} {d w : Bytes} {database wal : Option Bytes} {entropy : Bytes}
    (below : Native.Below low (still database wal entropy)) (survives : Hosting.NativeSurviving low d w) :
    Hosting.rebooted low d w = still database wal entropy := by
  have same : ∀ file image kept, (still database wal entropy).disk? file = some (settled image) →
      Survives (Native.nativeTearing file) (low.disk file) kept → kept = image := by
    intro file image kept found survives
    have higher := below.survives file kept survives
    rw [Store.disk, found] at higher
    exact survives_settled higher
  have one : ∀ file (image : Option Bytes) kept, (still database wal entropy).disk? file = image.map settled →
      Survives (Native.nativeTearing file) (low.disk file) kept → ((low.disk? file).map fun _ => settled kept) = image.map settled := by
    intro file image kept found survives
    have present := below.present file
    rw [found] at present
    cases image with
    | none =>
        rw [Option.map_none, Option.isSome_none, Option.isSome_eq_false_iff, Option.isNone_iff_eq_none] at present
        rw [present]
        rfl
    | some image =>
        obtain ⟨disk, here⟩ := Option.isSome_iff_exists.mp present
        rw [here, same file image kept found survives]
        rfl
  have database' := one .database database d rfl survives.1
  have wal' := one .wal wal w rfl survives.2
  simp only [Store.disk?] at database' wal'
  rw [Hosting.rebooted, database', wal', below.entropy]
  rfl

theorem machine_declines (named : ∀ file, volume.named (volume.widen (config.path file)) = some file) (large : 64 ≤ config.limit)
    {d w : Option Bytes} {entropy : Bytes} (machine : Machine) (event : System.Event) (next : Machine)
    (declined : Declined (still d w entropy) machine) (step : machine.Step volume config event next) :
    Declined (still d w entropy) next ∧ ∀ act result, event = .returned act result → ∃ error, result = .error error := by
  obtain ⟨same, start, hold, rests, tracks⟩ := declined
  have gated : ∀ act : Act, Gated (Declines batchesInit) (act.perform machine.db) := fun act => by
    rw [same]
    exact perform_gated act
  cases step with
  | @returned act result db handles last calls =>
      obtain ⟨⟨⟨error, told⟩, unchanged⟩, left⟩ := (gated_declines named large (gated act) start _ _ calls).2 _ rfl
      rw [← same] at rests
      obtain ⟨hold', rests', tracks'⟩ := (lower_follows (Owning.perform_follows rests act)
        (fun hold call handles low tracks _ => implement_tracks named call tracks) tracks _ _ calls).2 _ rfl
      simp only at told unchanged rests'
      subst unchanged
      exact ⟨⟨rfl, left, hold', rests', tracks'⟩, fun _ _ same => by cases same; exact ⟨error, told⟩⟩
  | @restarted act outcome last calls cut =>
      have below := (gated_declines named large (gated act) start _ _ calls).1 cut
      exact ⟨boot_declined below, fun _ _ same => by cases same⟩
  | @crashed act outcome last d' w' calls cut survives =>
      have below := (gated_declines named large (gated act) start _ _ calls).1 cut
      rw [rebooted_still below survives]
      exact ⟨boot_declined (Native.below_refl _), fun _ _ same => by cases same⟩

/-- No process holds a handle between its calls. -/
theorem Declined.table (declined : Declined store machine) (handle : Int) : machine.space.table handle = none := by
  obtain ⟨_, ⟨_, held⟩, hold, rests, tracks⟩ := declined
  have shut : ∀ file, ¬ 0 ≤ (descriptors machine.handles file).fd := by
    intro file valid
    have open_ := (tracks file).mpr valid
    cases file with
    | database => exact absurd (rests.database.symm.trans open_) nofun
    | wal => exact absurd (rests.wal.symm.trans open_) nofun
  rw [Option.eq_none_iff_forall_not_mem]
  intro descriptor found
  obtain ⟨file, _, sits, valid⟩ := (held.table _ _).mp found
  exact shut file (by rw [sits]; exact valid)

theorem below_contents {low : Store} (below : Native.Below low store) (file : File) :
    (low.disk? file).map Disk.content = (store.disk? file).map Disk.content := by
  have present := below.present file
  have content := below.content file
  simp only [Store.content, Store.disk] at content
  cases here : low.disk? file with
  | none =>
      rw [here, Option.isSome_none, eq_comm, Option.isSome_eq_false_iff, Option.isNone_iff_eq_none] at present
      rw [present]
  | some disk =>
      rw [here, Option.isSome_some, eq_comm, Option.isSome_iff_exists] at present
      obtain ⟨disk', there⟩ := present
      rw [here, there] at content
      rw [there]
      exact congrArg some content

/-- The batches API fails closed on Windows: in every run of processes on any two files,
with whatever the Win32 calls return, no call returns 0, neither file is created or
changed, and no handle stays open. -/
theorem fails_closed (named : ∀ file, volume.named (volume.widen (config.path file)) = some file) (large : 64 ≤ config.limit)
    {d w : Option Bytes} {entropy : Bytes} (runs : Runs (Machine.Step volume config) (.boot (still d w entropy)) events machine) :
    (∀ act result, .returned act result ∈ events → ∃ error, result = .error error) ∧ machine.db = batchesInit ∧
      (∀ handle, machine.space.table handle = none) ∧ machine.space.store.database.map Disk.content = d ∧
        machine.space.store.wal.map Disk.content = w := by
  obtain ⟨declined, told⟩ := runs_keep runs (boot_declined (Native.below_refl (still d w entropy))) fun machine event next =>
    machine_declines named large machine event next
  have contents : ∀ image : Option Bytes, (image.map settled).map Disk.content = image := fun image => by
    cases image <;> rfl
  have database := below_contents declined.related.1 .database
  have wal := below_contents declined.related.1 .wal
  exact ⟨fun act result among => told _ among act result rfl, declined.db, declined.table, database.trans (contents d), wal.trans (contents w)⟩

/-- The start of a process on a volume without the two files. -/
def fresh : Machine := .boot (still none none (List.replicate 16 7))

def creating : Prog WinReply (Option ((Except Error Answer × Batches) × WinHandles)) :=
  lower (implement slotwise) (Act.perform batchesInit (.openPair .createNew batchScratch)) .closed

theorem creating_refused : (creating.run working fresh.space).1.map (·.1.1) = some (.error (.errno .enotsup)) := by decide +kernel

theorem fails_closed_creating : ∃ machine, Runs (Machine.Step ascii slotwise) fresh
    [.returned (.openPair .createNew batchScratch) (.error (.errno .enotsup))] machine ∧ machine.db = batchesInit ∧
      (∀ handle, machine.space.table handle = none) ∧ machine.space.store.database.map Disk.content = none ∧
        machine.space.store.wal.map Disk.content = none := by
  obtain ⟨⟨⟨result, db⟩, handles⟩, ran, told⟩ := Option.map_eq_some_iff.mp creating_refused
  have performs := @performs_run _ _ _ _ (Objects.Step ascii) working (fun call space => work_steps call space) creating fresh.space
  rw [ran] at performs
  simp only at told
  subst told
  have runs := Runs.step (.start fresh) (Machine.Step.returned performs)
  exact ⟨_, runs, (fails_closed slotwise_named (Nat.le_refl 64) runs).2⟩

end Machines

end Timelite.Declining
