import Timelite.Soundness

/-!
The error law of the calls on a handle: a failure leaves the handle and the
files alone, or it poisons the handle, and a poisoned handle makes no request.
-/
namespace Timelite.Poisoning
open Program Codec Backend BackendLaws Cursor Relocation Seeking Ranging Checkpointing Reader Retention BatchApi Aggregating
  System Soundness

/-- Whether a request writes, syncs or truncates a file, or creates one. -/
def changes : Call → Bool
  | .write _ _ _ | .truncate _ _ | .sync _ | .provision _ | .create _ => true
  | _ => false

/-- The calls on an open handle that leave it open. -/
def Operation : Act → Bool
  | .openPair _ _ | .close => false
  | _ => true

def ReadOnly : Act → Bool
  | .next _ _ | .nextRange _ _ _ | .seek _ _ | .aggregateRange _ _ | .rewind | .getStatus => true
  | _ => false

/-- The one error that moves a cursor: a seek that finds nothing leaves it at the end. -/
def SeekEnd (act : Act) (error : Error) : Prop :=
  error = .endOfData ∧ ∃ from_us scratchSize, act = .seek from_us scratchSize

section Requests
variable {α β : Type} {db db' : Batches} {store after : Store} {requests : List Call}

theorem quiet_request {call : Call} (quiet : ∀ store, (serve call store).2 = store) : changes call = false := by
  have still := quiet ⟨none, none, []⟩
  cases call with
  | write file offset bytes => cases file <;> cases still
  | truncate file size => cases file <;> cases still
  | sync file => cases file <;> cases still
  | provision file => cases file <;> cases still
  | create file => cases file <;> cases still
  | «open» file => rfl
  | lock file => rfl
  | identity => rfl
  | read file offset length => rfl
  | size file => rfl
  | close file => rfl

theorem observes_quiet {failed : α → Prop} {program : Prog Reply α} {outcome : Option α}
    (observes : Observes device failed program) (issued : Issues device program store requests outcome after) :
    after = store ∧ ∀ request ∈ requests, changes request = false :=
  (observes.issues issued).imp_right fun quiet request among => quiet_request (quiet request among)

-- Requests that change nothing leave the store, failed or not.
theorem unchanged {program : Prog Reply α} {outcome : Option α} (issued : Issues device program store requests outcome after)
    (quiet : ∀ request ∈ requests, changes request = false) : after = store := by
  induction issued with
  | done value state => rfl
  | stop program state => rfl
  | @serve request next state after outcome requests rest ih =>
      have calm := quiet request (List.mem_cons_self ..)
      have served : (serve request state).2 = state := by
        cases request with
        | «open» file => exact (apply_ite Prod.snd _ _ _).trans (ite_self _)
        | write file offset bytes => cases calm
        | truncate file size => cases calm
        | sync file => cases calm
        | provision file => cases calm
        | create file => cases calm
        | lock file => rfl
        | identity => rfl
        | read file offset length => rfl
        | size file => rfl
        | close file => rfl
      exact (ih fun other later => quiet other (List.mem_cons_of_mem _ later)).trans served
  | @fail request next state middle after reply outcome requests fault rest ih =>
      have calm := quiet request (List.mem_cons_self ..)
      have kept : middle = state := by
        cases fault <;> first | rfl | (cases calm)
      exact (ih fun other later => quiet other (List.mem_cons_of_mem _ later)).trans kept

/-- What a call may answer: an error before any effect or with a poisoned handle, a success without one. -/
def Lawful (db : Batches) (program : Op α) : Prop :=
  ∀ {store requests result db' after}, Issues device program store requests (some (result, db')) after →
    (∀ error, result = .error error → db' = db ∧ (∀ request ∈ requests, changes request = false) ∨ db'.failed = true) ∧
      ∀ answer, result = .ok answer → db'.failed = false

theorem lawful_refuse (db : Batches) (error : Error) : Lawful db (refuse db error : Op α) := by
  intro store requests result db' after issued
  obtain ⟨rfl, rfl, shape⟩ := issues_done device issued
  cases shape _ rfl
  exact ⟨fun error same => .inl ⟨rfl, fun request none => (by cases none)⟩, fun answer same => (by cases same)⟩

theorem lawful_succeed {value : α} (sound : db'.failed = false) : Lawful db (succeed db' value) := by
  intro store requests result db'' after issued
  obtain ⟨rfl, rfl, shape⟩ := issues_done device issued
  cases shape _ rfl
  exact ⟨fun error same => (by cases same), fun answer same => sound⟩

/-- A step that only reads comes before the first effect. -/
theorem lawful_attempt {step : Io α} {next : α → Op β} (reads : Reads step) (rest : ∀ value, Lawful db (next value)) :
    Lawful db (attempt db step next) := by
  intro store requests result db' after issued
  rcases issues_bind device issued with ⟨ended, _⟩ | ⟨value, middle, front, back, rfl, first, second⟩
  · cases ended
  · obtain ⟨_, quiet⟩ := observes_quiet reads.observes first
    cases value with
    | error error =>
        obtain ⟨rfl, _, shape⟩ := issues_done device second
        cases shape _ rfl
        rw [List.append_nil]
        exact ⟨fun error same => .inl ⟨rfl, quiet⟩, fun answer same => (by cases same)⟩
    | ok value =>
        obtain ⟨errors, success⟩ := rest value second
        refine ⟨fun error same => (errors error same).imp_left fun ⟨kept, quiet'⟩ => ⟨kept, fun request among => ?_⟩, success⟩
        rcases List.mem_append.mp among with before | later
        · exact quiet request before
        · exact quiet' request later

/-- Every result is a success, or it comes with a poisoned handle. -/
def Marked (result : Except Error α × Batches) : Prop :=
  (∀ error, result.1 = .error error → result.2.failed = true) ∧ ∀ answer, result.1 = .ok answer → result.2.failed = false

theorem lawful_marked {program : Op α} (marked : Prog.Every Marked program) : Lawful db program := by
  intro store requests result db' after issued
  obtain ⟨errors, success⟩ := marked.exec (issues_exec device issued) _ rfl
  exact ⟨fun error same => .inr (errors error same), success⟩

theorem marked_attempt {step : Io α} {next : α → Op β} (poisoned : db.failed = true)
    (rest : ∀ value, Prog.Every Marked (next value)) : Prog.Every Marked (attempt db step next) := by
  refine every_bind (every_true step) fun result _ => ?_
  cases result with
  | error error => exact ⟨fun error same => poisoned, fun answer same => (by cases same)⟩
  | ok value => exact rest value

theorem marked_succeed {value : α} (sound : db.failed = false) : Prog.Every Marked (succeed db value) :=
  ⟨fun error same => (by cases same), fun answer same => sound⟩

end Requests

section Writers
variable (db : Batches)

theorem ready_sound (ready : batchReady db = .ok ()) : db.failed = false := by
  unfold batchReady at ready
  split at ready
  · cases ready
  · split at ready
    · cases ready
    · rename_i sound
      simpa using sound

theorem arguments_sound {scratchSize : Nat} (ready : readArguments db scratchSize = .ok ()) : db.failed = false := by
  unfold readArguments at ready
  cases open_ : batchReady db with
  | error error =>
      rw [open_] at ready
      cases ready
  | ok ready' => exact ready_sound db open_

theorem lawful_append (records : List Record) (scratchSize : Nat) : Lawful db (batchesAppend db records scratchSize) := by
  unfold batchesAppend
  cases ready : batchReady db with
  | error error => exact lawful_refuse db error
  | ok ready' =>
      simp only
      by_cases count : records.length = 0 ∨ records.length > maxRecords
      · rw [if_pos count]
        exact lawful_refuse db _
      rw [if_neg count]
      by_cases small : scratchSize < batchScratch
      · rw [if_pos small]
        exact lawful_refuse db _
      rw [if_neg small]
      by_cases disorder : timesFrom (appendFloor db) records = false
      · rw [if_pos disorder]
        exact lawful_refuse db _
      rw [if_neg disorder]
      by_cases full : 32 + records.length * 20 + 32 > walCapacity - db.walEnd
      · rw [if_pos full]
        exact lawful_refuse db _
      rw [if_neg full]
      by_cases last : db.sequence = uint64Max
      · rw [if_pos last]
        exact lawful_refuse db _
      rw [if_neg last]
      exact lawful_marked (marked_attempt rfl fun _ => marked_succeed rfl)

theorem lawful_checkpoint (scratchSize : Nat) : Lawful db (batchesCheckpoint db scratchSize) := by
  unfold batchesCheckpoint
  cases ready : readArguments db scratchSize with
  | error error => exact lawful_refuse db error
  | ok ready' =>
      simp only
      by_cases none : db.walEnd = 32
      · rw [if_pos none]
        exact lawful_succeed (arguments_sound db ready)
      rw [if_neg none]
      by_cases last : db.revision = uint64Max
      · rw [if_pos last]
        exact lawful_refuse db _
      rw [if_neg last]
      by_cases full : db.walEnd - 32 + 64 > databaseCapacity - db.dataEnd
      · rw [if_pos full]
        exact lawful_refuse db _
      rw [if_neg full]
      exact lawful_attempt (reads_checkpointLinks db) fun _ => lawful_marked <|
        marked_attempt rfl fun _ => marked_attempt rfl fun _ => marked_attempt rfl fun _ => marked_succeed rfl

theorem lawful_expire (cutoff scratchSize : Nat) : Lawful db (batchesExpireBefore db cutoff scratchSize) := by
  unfold batchesExpireBefore
  cases ready : readArguments db scratchSize with
  | error error => exact lawful_refuse db error
  | ok ready' =>
      refine lawful_attempt (reads_surveySegments _ _ _ _ _) fun survey => ?_
      by_cases none : survey.segments = db.generation
      · rw [if_pos none]
        exact lawful_succeed (arguments_sound db ready)
      rw [if_neg none]
      by_cases full : survey.bytes > databaseCapacity - db.dataEnd
      · rw [if_pos full]
        exact lawful_refuse db _
      rw [if_neg full]
      by_cases last : db.revision > uint64Max - 5
      · rw [if_pos last]
        exact lawful_refuse db _
      rw [if_neg last]
      exact lawful_marked <| marked_attempt rfl fun _ => marked_attempt rfl fun _ => marked_attempt rfl fun _ =>
        marked_succeed rfl

end Writers

section Readers
variable {α : Type} {db : Batches} {act : Act}

/-- What a reading call may leave: the handle it was given after an error, and never another poison mark. -/
def Mild (spared : Error → Prop) (db : Batches) (result : Except Error α × Batches) : Prop :=
  (∀ error, result.1 = .error error → spared error ∨ result.2 = db) ∧ result.2.failed = db.failed

variable {spared : Error → Prop}

theorem mild_refuse (error : Error) : Prog.Every (Mild spared db) (refuse db error : Op α) :=
  ⟨fun _ _ => .inr rfl, rfl⟩

theorem mild_succeed {cursor : Batches} {value : α} : Prog.Every (Mild spared db) (succeed (copyCursor db cursor) value) :=
  ⟨fun error same => (by cases same), rfl⟩

theorem mild_attempt {β : Type} {step : Io α} {next : α → Op β} (rest : ∀ value, Prog.Every (Mild spared db) (next value)) :
    Prog.Every (Mild spared db) (attempt db step next) := by
  refine every_bind (every_true step) fun result _ => ?_
  cases result with
  | error error => exact mild_refuse error
  | ok value => exact rest value

theorem mild_next (capacity scratchSize : Nat) : Prog.Every (Mild spared db) (batchesNext db capacity scratchSize) := by
  unfold batchesNext
  split
  · exact mild_refuse _
  · refine mild_attempt fun delivery => ?_
    split
    · exact mild_refuse _
    · exact mild_succeed

theorem mild_range (range : Range) (capacity scratchSize : Nat) :
    Prog.Every (Mild spared db) (batchesNextRange db range capacity scratchSize) := by
  unfold batchesNextRange
  split
  · exact mild_refuse _
  split
  · exact mild_refuse _
  split
  · exact mild_refuse _
  split
  · exact mild_refuse _
  exact mild_attempt fun ordered => mild_attempt fun found => mild_succeed

theorem mild_seek (from_us scratchSize : Nat) :
    Prog.Every (Mild (fun error => error = .endOfData) db) (batchesSeek db from_us scratchSize) := by
  unfold batchesSeek
  split
  · exact mild_refuse _
  refine mild_attempt fun (cursor, found, offset) => ?_
  cases found with
  | true => exact mild_succeed
  | false =>
      refine mild_attempt fun (cursor, found) => ?_
      cases found with
      | true => exact mild_succeed
      | false => exact ⟨fun error same => .inl (Except.error.inj same).symm, rfl⟩

theorem mild_aggregate (range : Range) (scratchSize : Nat) :
    Prog.Every (Mild spared db) (batchesAggregateRange db range scratchSize) := by
  refine every_mono (every_aggregate db range scratchSize) fun result same => ?_
  exact ⟨fun error _ => .inr same, congrArg Batches.failed same⟩

end Readers

section Law
variable {α : Type} {db db' : Batches} {act : Act} {store after : Store} {requests : List Call}
  {result : Except Error Answer}

theorem issues_answering {answer : α → Answer} {call : Op α}
    (issued : Issues device (answering answer call) store requests (some (result, db')) after) :
    ∃ inner, Issues device call store requests (some (inner, db')) after ∧ result = inner.map answer := by
  rcases issues_bind device issued with ⟨ended, _⟩ | ⟨value, middle, front, back, rfl, first, second⟩
  · cases ended
  · obtain ⟨rfl, rfl, shape⟩ := issues_done device second
    cases shape _ rfl
    exact ⟨value.1, by simpa using first, rfl⟩

theorem lawful_answering {answer : α → Answer} {call : Op α} (lawful : Lawful db call) :
    Lawful db (answering answer call) := by
  intro store requests result db' after issued
  obtain ⟨inner, inside, rfl⟩ := issues_answering issued
  obtain ⟨errors, success⟩ := lawful inside
  cases inner with
  | error error => exact ⟨fun _ _ => errors error rfl, fun answer same => (by cases same)⟩
  | ok value => exact ⟨fun error same => (by cases same), fun _ _ => success value rfl⟩

/-- A call that reads: quiet requests, and the handle it was given after an error. -/
def Gentle (act : Act) (db : Batches) (program : Op Answer) : Prop :=
  ∀ {store requests result db' after}, Issues device program store requests (some (result, db')) after →
    db'.failed = db.failed ∧ after = store ∧ (∀ request ∈ requests, changes request = false) ∧
      ∀ error, result = .error error → SeekEnd act error ∨ db' = db

theorem gentle_answering {answer : α → Answer} {call : Op α} {failed : Except Error α × Batches → Prop}
    (observes : Observes device failed call) (mild : Prog.Every (Mild (SeekEnd act) db) call) :
    Gentle act db (answering answer call) := by
  intro store requests result db' after issued
  obtain ⟨inner, inside, rfl⟩ := issues_answering issued
  obtain ⟨same, quiet⟩ := observes_quiet observes inside
  obtain ⟨errors, failed⟩ := mild.exec (issues_exec device inside) _ rfl
  refine ⟨failed, same, quiet, fun error shape => ?_⟩
  cases inner with
  | error error' =>
      cases shape
      exact errors error rfl
  | ok value => cases shape

theorem gentle_done {program : Op Answer} (done : program = .done (result, db'))
    (same : db'.failed = db.failed) (errors : ∀ error, result = .error error → db' = db) : Gentle act db program := by
  subst done
  intro store requests result' db'' after issued
  obtain ⟨rfl, rfl, shape⟩ := issues_done device issued
  cases shape _ rfl
  exact ⟨same, rfl, fun request none => (by cases none), fun error failed => .inr (errors error failed)⟩

theorem read_only_gentle (reading : ReadOnly act = true) : Gentle act db (act.perform db) := by
  cases act with
  | openPair mode scratchSize => cases reading
  | close => cases reading
  | append records scratchSize => cases reading
  | checkpoint scratchSize => cases reading
  | expireBefore cutoff scratchSize => cases reading
  | next capacity scratchSize => exact gentle_answering (observes_next db capacity scratchSize) (mild_next _ _)
  | nextRange range capacity scratchSize =>
      exact gentle_answering (observes_next_range db range capacity scratchSize) (mild_range _ _ _)
  | seek from_us scratchSize =>
      refine gentle_answering (observes_seek db from_us scratchSize) (every_mono (mild_seek _ _) fun result mild => ?_)
      exact ⟨fun error same => (mild.1 error same).imp_left fun ended => ⟨ended, _, _, rfl⟩, mild.2⟩
  | aggregateRange range scratchSize =>
      exact gentle_answering (observes_aggregate db range scratchSize) (mild_aggregate _ _)
  | rewind =>
      refine gentle_done rfl ?_ fun error failed => ?_
      · unfold batchesRewind
        split <;> rfl
      · unfold batchesRewind at failed ⊢
        split at failed
        · rfl
        · cases failed
  | getStatus => exact gentle_done rfl rfl fun _ _ => rfl

theorem writing_lawful (operation : Operation act = true) (writing : ReadOnly act = false) :
    Lawful db (act.perform db) := by
  cases act with
  | append records scratchSize => exact lawful_answering (lawful_append db records scratchSize)
  | checkpoint scratchSize => exact lawful_answering (lawful_checkpoint db scratchSize)
  | expireBefore cutoff scratchSize => exact lawful_answering (lawful_expire db cutoff scratchSize)
  | openPair mode scratchSize => cases operation
  | close => cases operation
  | next capacity scratchSize => cases writing
  | nextRange range capacity scratchSize => cases writing
  | seek from_us scratchSize => cases writing
  | aggregateRange range scratchSize => cases writing
  | rewind => cases writing
  | getStatus => cases writing

theorem operation_refused {error : Error} (operation : Operation act = true) (refused : batchReady db = .error error) :
    act.perform db = .done (.error error, db) := by
  refine refused_perform refused ?_ ?_
  · rintro rfl
    cases operation
  · rintro mode scratchSize rfl
    cases operation

theorem poisoned_refused (held : db.wal = true) (failed : db.failed = true) (operation : Operation act = true) :
    act.perform db = .done (.error .recoveryRequired, db) := by
  refine operation_refused operation ?_
  rw [batchReady, if_neg (by simp [held]), if_pos failed]

-- Only closing the handle ends the poisoned state.
theorem poisoned_run {host host' : Host} {events : List Event} (held : host.db.wal = true) (failed : host.db.failed = true)
    (run : Run host events host')
    (calls : ∀ event ∈ events, ∃ act result, event = .returned act result ∧ Operation act = true) :
    host' = host ∧ ∀ event ∈ events, ∃ act, event = .returned act (.error .recoveryRequired) := by
  induction run with
  | start => exact ⟨rfl, fun event none => (by cases none)⟩
  | @step middle last events event before step ih =>
      obtain ⟨rfl, earlier⟩ := ih fun event among => calls event (List.mem_append_left _ among)
      obtain ⟨act, result, rfl, operation⟩ := calls event (List.mem_append_right _ (List.mem_singleton_self _))
      cases step with
      | returned execution =>
          rw [poisoned_refused held failed operation] at execution
          obtain ⟨rfl, shape⟩ := exec_done device execution
          cases shape _ rfl
          refine ⟨rfl, fun event among => ?_⟩
          rcases List.mem_append.mp among with before | now
          · exact earlier event before
          · exact ⟨act, List.mem_singleton.mp now⟩

end Law

/-- Every call on a handle, under every pattern of failures: an error leaves the handle and the files alone or
poisons the handle, reading never poisons, and a poisoned handle makes no request until it is closed. -/
theorem all_or_poison {db db' : Batches} {act : Act} {store after : Store} {requests : List Call}
    {result : Except Error Answer} (operation : Operation act = true)
    (issued : Issues device (act.perform db) store requests (some (result, db')) after) :
    (∀ error, result = .error error → SeekEnd act error ∨
      db' = db ∧ after = store ∧ (∀ request ∈ requests, changes request = false) ∨ db'.failed = true) ∧
    (ReadOnly act = true → db'.failed = db.failed ∧ after = store ∧ (∀ request ∈ requests, changes request = false) ∧
      ∀ error, result = .error error → SeekEnd act error ∨ db' = db) ∧
    (∀ answer, result = .ok answer → db'.failed = false) ∧
    (db.wal = true → db.failed = true →
      result = .error .recoveryRequired ∧ db' = db ∧ after = store ∧ requests = [] ∧
        ∀ (events : List Event) (host : Host), Run ⟨store, db⟩ events host →
          (∀ event ∈ events, ∃ act result, event = .returned act result ∧ Operation act = true) →
            host = ⟨store, db⟩ ∧ ∀ event ∈ events, ∃ act, event = .returned act (.error .recoveryRequired)) := by
  refine ⟨?_, fun reading => read_only_gentle reading issued, ?_, fun held failed => ?_⟩
  · intro error refused
    cases reading : ReadOnly act with
    | true =>
        obtain ⟨_, same, quiet, errors⟩ := read_only_gentle reading issued
        exact (errors error refused).imp_right fun kept => .inl ⟨kept, same, quiet⟩
    | false =>
        rcases (writing_lawful operation reading issued).1 error refused with ⟨kept, quiet⟩ | poisoned
        · exact .inr (.inl ⟨kept, unchanged issued quiet, quiet⟩)
        · exact .inr (.inr poisoned)
  · intro answer success
    cases reading : ReadOnly act with
    | false => exact (writing_lawful operation reading issued).2 answer success
    | true =>
        rw [(read_only_gentle reading issued).1]
        cases ready : batchReady db with
        | ok ready' => exact ready_sound db ready
        | error error =>
            rw [operation_refused operation ready] at issued
            obtain ⟨_, _, shape⟩ := issues_done device issued
            cases shape _ rfl
            cases success
  · rw [poisoned_refused held failed operation] at issued
    obtain ⟨rfl, rfl, shape⟩ := issues_done device issued
    cases shape _ rfl
    exact ⟨rfl, rfl, rfl, rfl, fun events host run calls => poisoned_run held failed run calls⟩

theorem call_issues (host : Host) (act : Act) : ∃ requests, Issues device (act.perform host.db) host.store requests
    (some ((host.call act).1, (host.call act).2.db)) (host.call act).2.store :=
  exec_issues device (exec_run device (act.perform host.db) host.store)

/-- The handle after an append whose first write to the WAL has failed. -/
def poisonedHost : Host := (fresh.spoil (.append [⟨7, 5, -1⟩] batchScratch) 0).2

theorem spoil_issues (host : Host) (act : Act) (count : Nat) : ∃ requests, Issues device (act.perform host.db) host.store
    requests (some ((host.spoil act count).1, (host.spoil act count).2.db)) (host.spoil act count).2.store :=
  exec_issues device (exec_spoiled count (act.perform host.db) host.store)

-- The failed write poisons the handle, and every later call is refused.
theorem all_or_poison_spoiled : (fresh.spoil (.append [⟨7, 5, -1⟩] batchScratch) 0).1 = .error (.errno .eio) ∧
    poisonedHost.db.failed = true ∧ (poisonedHost.call (.checkpoint batchScratch)).1 = .error .recoveryRequired ∧
    ∀ (events : List Event) (host : Host), Run poisonedHost events host →
      (∀ event ∈ events, ∃ act result, event = .returned act result ∧ Operation act = true) →
        host = poisonedHost ∧ ∀ event ∈ events, ∃ act, event = .returned act (.error .recoveryRequired) := by
  have refused : (fresh.spoil (.append [⟨7, 5, -1⟩] batchScratch) 0).1 = .error (.errno .eio) := by decide +kernel
  have changed : poisonedHost.db ≠ fresh.db := by decide +kernel
  have held : poisonedHost.db.wal = true := by decide +kernel
  obtain ⟨requests, issued⟩ := spoil_issues fresh (.append [⟨7, 5, -1⟩] batchScratch) 0
  have failed : poisonedHost.db.failed = true := by
    rcases (all_or_poison rfl issued).1 _ refused with ended | ⟨same, _⟩ | poisoned
    · cases ended.1
    · exact absurd same changed
    · exact poisoned
  refine ⟨refused, failed, ?_⟩
  generalize poisonedHost = host at held failed ⊢
  obtain ⟨later, issued'⟩ := call_issues host (.checkpoint batchScratch)
  obtain ⟨recovery, _, _, _, every⟩ := (all_or_poison rfl issued').2.2.2 held failed
  exact ⟨recovery, every⟩

end Timelite.Poisoning
