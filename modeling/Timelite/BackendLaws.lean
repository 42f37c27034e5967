import Timelite.Backend

/-!
How requests run on the working backend, and the triples of `Program` for the
error monad. `on` is the undisturbed run; `Reads` is the `Observes` of a
function that only reads; `Runs` is a triple that ends in success.
-/
namespace Timelite.BackendLaws
open ByteFile Program Durable Codec Backend
variable {α β : Type}

section Stores

@[simp] theorem disk_put_same (store : Store) (file : File) (disk : Disk) :
    (store.put file disk).disk file = disk := by
  cases file <;> rfl

@[simp] theorem disk_put_database (store : Store) (disk : Disk) :
    (store.put .database disk).disk .wal = store.disk .wal := rfl

@[simp] theorem disk_put_wal (store : Store) (disk : Disk) :
    (store.put .wal disk).disk .database = store.disk .database := rfl

@[simp] theorem disk_update_same (store : Store) (file : File) (change : Update) :
    (store.update file change).disk file = (store.disk file).update change := by
  simp [Store.update]

@[simp] theorem disk_update_database (store : Store) (change : Update) :
    (store.update .database change).disk .wal = store.disk .wal := rfl

@[simp] theorem disk_update_wal (store : Store) (change : Update) :
    (store.update .wal change).disk .database = store.disk .database := rfl

@[simp] theorem disk_sync_same (store : Store) (file : File) :
    (store.sync file).disk file = (store.disk file).sync := by
  simp [Store.sync]

@[simp] theorem disk_sync_database (store : Store) :
    (store.sync .database).disk .wal = store.disk .wal := rfl

@[simp] theorem disk_sync_wal (store : Store) :
    (store.sync .wal).disk .database = store.disk .database := rfl

@[simp] theorem content_update_same (store : Store) (file : File) (change : Update) :
    (store.update file change).content file = change.apply (store.content file) := by
  simp [Store.content]

@[simp] theorem content_update_database (store : Store) (change : Update) :
    (store.update .database change).content .wal = store.content .wal := rfl

@[simp] theorem content_update_wal (store : Store) (change : Update) :
    (store.update .wal change).content .database = store.content .database := rfl

@[simp] theorem content_sync (store : Store) (file other : File) :
    (store.sync file).content other = store.content other := by
  cases file <;> cases other <;> simp [Store.content]

end Stores

section Running

def on (program : Io α) (store : Store) : Except Error α × Store := Prog.run device program store

@[simp] theorem on_pure (value : α) (store : Store) : on (pure value) store = (.ok value, store) := rfl

@[simp] theorem on_fail (error : Error) (store : Store) :
    on (Io.fail error : Io α) store = (.error error, store) := rfl

theorem on_bind (first : Io α) (next : α → Io β) (store : Store) :
    on (first >>= next) store =
      match on first store with
      | (.ok value, after) => on (next value) after
      | (.error error, after) => (.error error, after) := by
  refine (run_bind device first _ store).trans ?_
  change _ = match Prog.run device first store with
    | (.ok value, after) => on (next value) after
    | (.error error, after) => (.error error, after)
  rcases Prog.run device first store with ⟨result | result, after⟩ <;> rfl

theorem on_bind_ok {first : Io α} {next : α → Io β} {store after : Store} {value : α}
    (ran : on first store = (.ok value, after)) : on (first >>= next) store = on (next value) after := by
  rw [on_bind, ran]

theorem on_bind_error {first : Io α} {next : α → Io β} {store after : Store} {error : Error}
    (ran : on first store = (.error error, after)) :
    on (first >>= next) store = (.error error, after) := by
  rw [on_bind, ran]

theorem on_examine (first : Io α) (next : Except Error α → Io β) (store : Store) :
    on (first.examine next) store = on (next (on first store).1) (on first store).2 :=
  run_bind device first next store

@[simp] theorem on_require (condition : Prop) [Decidable condition] (error : Error) (store : Store) :
    on (Io.require condition error) store =
      (if condition then .ok () else .error error, store) := by
  unfold Io.require
  split <;> rfl

theorem on_require_bind (condition : Prop) [Decidable condition] (error : Error) (next : Unit → Io β)
    (store : Store) :
    on (Io.require condition error >>= next) store =
      if condition then on (next ()) store else (.error error, store) := by
  by_cases passes : condition <;> simp [on_bind, passes]

@[simp] theorem on_ite (condition : Prop) [Decidable condition] (yes no : Io α) (store : Store) :
    on (if condition then yes else no) store = if condition then on yes store else on no store := by
  split <;> rfl

@[simp] theorem on_read (file : File) (offset length : Nat) (store : Store) :
    on (fileRead file offset length) store =
      (.ok (readAt (store.content file) offset length), store) := rfl

@[simp] theorem on_write (file : File) (offset : Nat) (bytes : Bytes) (store : Store) :
    on (fileWrite file offset bytes) store =
      (.ok bytes.length, store.update file (.write offset bytes)) := rfl

@[simp] theorem on_size (file : File) (store : Store) :
    on (fileSize file) store = (.ok (store.content file).length, store) := rfl

@[simp] theorem on_lock (file : File) (store : Store) : on (fileLock file) store = (.ok (), store) := rfl

@[simp] theorem on_sync (file : File) (store : Store) :
    on (fileSync file) store = (.ok (), store.sync file) := rfl

@[simp] theorem on_provision (file : File) (store : Store) :
    on (fileProvision file) store = (.ok (), store.sync file) := rfl

@[simp] theorem on_truncate (file : File) (size : Nat) (store : Store) :
    on (fileTruncate file size) store = (.ok (), store.update file (.truncate size)) := rfl

theorem on_read_exact (file : File) (offset length : Nat) (store : Store) :
    on (readExact file offset length) store =
      (if (readAt (store.content file) offset length).length = length then
        .ok (readAt (store.content file) offset length) else .error .invalidDatabase, store) := by
  by_cases full : (readAt (store.content file) offset length).length = length <;>
    simp only [readExact, on_bind, on_read, on_require, full, if_true, if_false, on_pure]

theorem on_read_holds {file : File} {offset : Nat} {bytes : Bytes} {store : Store} {length : Nat}
    (held : Holds (store.content file) offset bytes) (size : bytes.length = length) :
    on (readExact file offset length) store = (.ok bytes, store) := by
  subst size
  rw [on_read_exact, held.read, if_pos rfl]

theorem on_read_short {file : File} {offset length : Nat} {store : Store}
    (short : (store.content file).length < offset + length) (some : 0 < length) :
    on (readExact file offset length) store = (.error .invalidDatabase, store) := by
  rw [on_read_exact, if_neg]
  simp only [read_length]
  omega

@[simp] theorem on_write_exact (file : File) (offset : Nat) (bytes : Bytes) (store : Store) :
    on (writeExact file offset bytes) store = (.ok (), store.update file (.write offset bytes)) := by
  simp [writeExact, on_bind]

end Running

section Reading

def Reads (program : Io α) : Prop := Observes device Failed program

theorem reads_pure (value : α) : Reads (pure value : Io α) := trivial

theorem reads_fail (error : Error) : Reads (Io.fail error : Io α) := trivial

theorem reads_done (result : Except Error α) : Reads (.done result) := trivial

theorem reads_bind {first : Io α} {next : α → Io β} (front : Reads first)
    (rest : ∀ value, Reads (next value)) : Reads (first >>= next) := by
  refine observes_bind front ?_ ?_
  · rintro result ⟨code, rfl⟩
    exact ⟨.error (.errno code), ⟨code, rfl⟩, rfl⟩
  · intro result
    cases result with
    | ok value => exact rest value
    | error error => trivial

-- A reader that looks at an error itself passes native errors on.
theorem reads_examine {first : Io α} {next : Except Error α → Io β} (front : Reads first)
    (stops : ∀ code, next (.error (.errno code)) = .done (.error (.errno code)))
    (rest : ∀ result, Reads (next result)) : Reads (first.examine next) := by
  refine observes_bind front ?_ rest
  rintro result ⟨code, rfl⟩
  exact ⟨.error (.errno code), ⟨code, rfl⟩, stops code⟩

theorem reads_require (condition : Prop) [Decidable condition] (error : Error) :
    Reads (Io.require condition error) := by
  unfold Io.require
  split <;> trivial

theorem reads_ite {condition : Prop} [Decidable condition] {yes no : Io α} (first : Reads yes)
    (second : Reads no) : Reads (if condition then yes else no) := by
  split
  · exact first
  · exact second

theorem reads_quiet {call : Call} (served : ∀ store, (serve call store).2 = store)
    (faults : ∀ store reply after, Fault call store reply after →
      after = store ∧ ∃ code, reply = .error code) : Reads (Io.perform call) := by
  refine ⟨served, fun store reply after fault => ?_, fun reply => ?_⟩
  · obtain ⟨same, code, refused⟩ := faults store reply after fault
    rw [refused]
    exact ⟨same, .error (.errno code), ⟨code, rfl⟩, rfl⟩
  · cases reply <;> trivial

theorem reads_read (file : File) (offset length : Nat) :
    Reads (fileRead file offset length) := by
  refine reads_quiet (fun store => rfl) fun store reply after fault => ?_
  cases fault with
  | before call store code known => exact ⟨rfl, code, rfl⟩

theorem reads_size (file : File) : Reads (fileSize file) := by
  refine reads_quiet (fun store => rfl) fun store reply after fault => ?_
  cases fault with
  | before call store code known => exact ⟨rfl, code, rfl⟩

theorem reads_lock (file : File) : Reads (fileLock file) := by
  refine reads_quiet (fun store => rfl) fun store reply after fault => ?_
  cases fault with
  | before call store code known => exact ⟨rfl, code, rfl⟩

theorem reads_read_exact (file : File) (offset length : Nat) : Reads (readExact file offset length) :=
  reads_bind (reads_read file offset length) fun _ =>
    reads_bind (reads_require _ _) fun _ => reads_pure _

theorem Reads.observes {program : Io α} (reads : Reads program) : Observes device Failed program := reads

attribute [irreducible] Reads

theorem Reads.on_state {program : Io α} (reads : Reads program) (store : Store) :
    (on program store).2 = store := reads.observes.run_state store

theorem Reads.on_eq {program : Io α} (reads : Reads program) (store : Store) :
    on program store = ((on program store).1, store) :=
  Prod.ext rfl (reads.on_state store)

end Reading

section Triples
variable {safe : Store → Prop}

/-- Undisturbed, the program succeeds with `value` and leaves `after`. -/
def Runs (safe : Store → Prop) (program : Io α) (store : Store) (value : α) (after : Store) : Prop :=
  Does device safe Failed program store (.ok value) after

theorem Runs.on_eq {program : Io α} {store after : Store} {value : α}
    (runs : Runs safe program store value after) : on program store = (.ok value, after) :=
  Does.run_eq runs

theorem runs_pure {store : Store} (kept : safe store) (value : α) :
    Runs safe (pure value) store value store := .done kept

theorem Reads.runs {program : Io α} (reads : Reads program) {store after : Store} {value : α}
    (kept : safe store) (ran : on program store = (.ok value, after)) :
    Runs safe program store value store :=
  Observes.does_of_run reads.observes kept ran

theorem runs_bind {first : Io α} {next : α → Io β} {store middle after : Store} {value : α} {result : β}
    (front : Runs safe first store value middle) (rest : Runs safe (next value) middle result after) :
    Runs safe (first >>= next) store result after := by
  refine Does.bind front ?_ rest
  rintro value' state ⟨code, rfl⟩ kept
  exact quits_done device kept ⟨code, rfl⟩

theorem runs_perform {call : Call} {store after : Store} {answer : call.Answer} (kept : safe store)
    (served : serve call store = (.ok answer, after)) (last : safe after)
    (faults : ∀ reply middle, Fault call store reply middle →
      safe middle ∧ ∃ code, reply = .error code) : Runs safe (Io.perform call) store answer after := by
  refine .ask kept (fun reply middle fault => ?_) ?_
  · obtain ⟨still, code, refused⟩ := faults reply middle fault
    rw [refused]
    exact quits_done device still ⟨code, rfl⟩
  · simp only [device, served]
    exact .done last

theorem runs_sync (file : File) {store : Store} (kept : safe store) (last : safe (store.sync file)) :
    Runs safe (fileSync file) store () (store.sync file) := by
  refine runs_perform kept rfl last fun reply middle fault => ?_
  cases fault with
  | before call store code known => exact ⟨kept, code, rfl⟩
  | sync file store code => exact ⟨last, code, rfl⟩

theorem runs_provision (file : File) {store : Store} (kept : safe store)
    (last : safe (store.sync file)) :
    Runs safe (fileProvision file) store () (store.sync file) := by
  refine runs_perform kept rfl last fun reply middle fault => ?_
  cases fault with
  | before call store code known => exact ⟨kept, code, rfl⟩
  | provision file store code => exact ⟨last, code, rfl⟩

theorem runs_truncate (file : File) (size : Nat) {store : Store} (kept : safe store)
    (last : safe (store.update file (.truncate size))) :
    Runs safe (fileTruncate file size) store () (store.update file (.truncate size)) := by
  refine runs_perform kept rfl last fun reply middle fault => ?_
  cases fault with
  | before call store code known => exact ⟨kept, code, rfl⟩
  | truncate file size store code => exact ⟨last, code, rfl⟩

theorem runs_write (file : File) (offset : Nat) (bytes : Bytes) {store : Store} (kept : safe store)
    (last : safe (store.update file (.write offset bytes)))
    (torn : ∀ count, (tearing file).allows (store.content file) offset bytes count →
      safe (store.update file (.write offset (bytes.take count)))) :
    Runs safe (writeExact file offset bytes) store () (store.update file (.write offset bytes)) := by
  have write : Runs safe (fileWrite file offset bytes) store bytes.length
      (store.update file (.write offset bytes)) := by
    refine runs_perform kept rfl last fun reply middle fault => ?_
    cases fault with
    | before call store code known => exact ⟨kept, code, rfl⟩
    | write file offset bytes count store code cut => exact ⟨torn count cut, code, rfl⟩
  refine runs_bind write ?_
  unfold Io.require
  rw [if_pos rfl]
  exact runs_pure last ()

end Triples

end Timelite.BackendLaws
