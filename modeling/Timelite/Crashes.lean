import Timelite.Images

/-!
Crash safety of a running operation. `Safe P` says that every pair of images a
crash can leave satisfies `P`; the rules add one request at a time. `Bears` and
`Syncs` are what an operation asks of a property of stores, so that the same
triple serves undisturbed runs and crash runs.
-/
namespace Timelite.Crashes
open ByteFile Program Durable Codec Backend BackendLaws
variable {P : Bytes → Bytes → Prop} {store : Store}

def Surviving (store : Store) (database wal : Bytes) : Prop :=
  Survives (tearing .database) (store.disk .database) database ∧
    Survives (tearing .wal) (store.disk .wal) wal

/-- Both files exist and every image pair a crash can leave satisfies `P`. -/
structure Safe (P : Bytes → Bytes → Prop) (store : Store) : Prop where
  database : store.database.isSome = true
  wal : store.wal.isSome = true
  images : ∀ database wal, Surviving store database wal → P database wal

theorem Safe.content (safe : Safe P store) : P (store.content .database) (store.content .wal) :=
  safe.images _ _ ⟨survives_content _, survives_content _⟩

theorem Safe.mono {Q : Bytes → Bytes → Prop} (safe : Safe P store)
    (implied : ∀ database wal, P database wal → Q database wal) : Safe Q store :=
  ⟨safe.database, safe.wal, fun d w survives => implied d w (safe.images d w survives)⟩

-- Fixing one image leaves a property of the other file alone.
theorem Safe.over_database (safe : Safe P store) {wal : Bytes}
    (survives : Survives (tearing .wal) (store.disk .wal) wal) :
    Always (tearing .database) (fun d => P d wal) (store.disk .database) :=
  fun d image => safe.images d wal ⟨image, survives⟩

theorem Safe.over_wal (safe : Safe P store) {database : Bytes}
    (survives : Survives (tearing .database) (store.disk .database) database) :
    Always (tearing .wal) (fun w => P database w) (store.disk .wal) :=
  fun w image => safe.images database w ⟨survives, image⟩

theorem safe_put_database {disk : Disk} (safe : Safe P store)
    (always : ∀ wal, Survives (tearing .wal) (store.disk .wal) wal →
      Always (tearing .database) (fun d => P d wal) disk) :
    Safe P (store.put .database disk) :=
  ⟨rfl, safe.wal, fun d w survives => always w survives.2 d survives.1⟩

theorem safe_put_wal {disk : Disk} (safe : Safe P store)
    (always : ∀ database, Survives (tearing .database) (store.disk .database) database →
      Always (tearing .wal) (fun w => P database w) disk) :
    Safe P (store.put .wal disk) :=
  ⟨safe.database, rfl, fun d w survives => always d survives.1 w survives.2⟩

theorem Safe.sync (safe : Safe P store) (file : File) : Safe P (store.sync file) := by
  cases file with
  | database => exact safe_put_database safe fun wal survives => (safe.over_database survives).sync
  | wal => exact safe_put_wal safe fun database survives => (safe.over_wal survives).sync

/-- Both files are as their last sync left them. -/
def Synced (store : Store) : Prop :=
  store.database = some (settled (store.content .database)) ∧
    store.wal = some (settled (store.content .wal))

theorem synced_disk (synced : Synced store) (file : File) :
    store.disk file = settled (store.content file) := by
  cases file with
  | database => exact congrArg (fun disk => Option.getD disk (settled [])) synced.1
  | wal => exact congrArg (fun disk => Option.getD disk (settled [])) synced.2

theorem synced_surviving (synced : Synced store) {database wal : Bytes}
    (survives : Surviving store database wal) :
    database = store.content .database ∧ wal = store.content .wal := by
  have left := survives.1
  have right := survives.2
  rw [synced_disk synced] at left right
  exact ⟨survives_settled left, survives_settled right⟩

theorem safe_synced (synced : Synced store) (kept : P (store.content .database) (store.content .wal)) :
    Safe P store := by
  refine ⟨by rw [synced.1]; rfl, by rw [synced.2]; rfl, fun d w survives => ?_⟩
  obtain ⟨rfl, rfl⟩ := synced_surviving synced survives
  exact kept

theorem synced_of_syncs (store : Store) : Synced ((store.sync .database).sync .wal) := ⟨rfl, rfl⟩

theorem synced_sync_update (synced : Synced store) (file : File) (change : Update) :
    Synced ((store.update file change).sync file) := by
  cases file with
  | database => exact ⟨rfl, synced.2⟩
  | wal => exact ⟨synced.1, rfl⟩

section Requests

theorem safe_write_database {offset : Nat} {bytes : Bytes} (safe : Safe P store)
    (whole : ∀ wal, Survives (tearing .wal) (store.disk .wal) wal →
      P (writeAt (store.content .database) offset bytes) wal)
    (torn : ∀ wal count, Survives (tearing .wal) (store.disk .wal) wal →
      (tearing .database).allows (store.content .database) offset bytes count →
      P (writeAt (store.content .database) offset (bytes.take count)) wal) :
    Runs (Safe P) (writeExact .database offset bytes) store ()
      (store.update .database (.write offset bytes)) := by
  refine runs_write .database offset bytes safe ?_ fun count cut => ?_
  · exact safe_put_database safe fun wal survives =>
      (safe.over_database survives).write (whole wal survives) fun count => torn wal count survives
  · exact safe_put_database safe fun wal survives =>
      (safe.over_database survives).write_part cut fun count => torn wal count survives

theorem safe_write_wal {offset : Nat} {bytes : Bytes} (safe : Safe P store)
    (torn : ∀ database count, Survives (tearing .database) (store.disk .database) database →
      P database (writeAt (store.content .wal) offset (bytes.take count))) :
    Runs (Safe P) (writeExact .wal offset bytes) store () (store.update .wal (.write offset bytes)) := by
  refine runs_write .wal offset bytes safe ?_ fun count cut => ?_
  · refine safe_put_wal safe fun database survives => (safe.over_wal survives).write ?_ fun count _ =>
      torn database count survives
    have whole := torn database bytes.length survives
    rwa [List.take_length] at whole
  · exact safe_put_wal safe fun database survives =>
      (safe.over_wal survives).write_part cut fun count _ => torn database count survives

theorem safe_truncate_database {size : Nat} (safe : Safe P store)
    (cut : ∀ wal, Survives (tearing .wal) (store.disk .wal) wal →
      P (resize (store.content .database) size) wal) :
    Runs (Safe P) (fileTruncate .database size) store () (store.update .database (.truncate size)) :=
  runs_truncate .database size safe
    (safe_put_database safe fun wal survives => (safe.over_database survives).truncate (cut wal survives))

theorem safe_truncate_wal {size : Nat} (safe : Safe P store)
    (cut : ∀ database, Survives (tearing .database) (store.disk .database) database →
      P database (resize (store.content .wal) size)) :
    Runs (Safe P) (fileTruncate .wal size) store () (store.update .wal (.truncate size)) :=
  runs_truncate .wal size safe
    (safe_put_wal safe fun database survives => (safe.over_wal survives).truncate (cut database survives))

end Requests

section Demands

/-- A property of stores that no sync breaks. -/
def Syncs (safe : Store → Prop) : Prop := ∀ store file, safe store → safe (store.sync file)

/-- A property of stores that no database write inside [low, high) breaks. -/
def Bears (safe : Store → Prop) (low high : Nat) : Prop :=
  ∀ store offset bytes, safe store → low ≤ offset → offset + bytes.length ≤ high →
    Runs safe (writeExact .database offset bytes) store () (store.update .database (.write offset bytes))

theorem syncs_safe (P : Bytes → Bytes → Prop) : Syncs (Safe P) := fun _ file safe => safe.sync file

theorem Syncs.runs {safe : Store → Prop} (syncs : Syncs safe) (file : File) {store : Store}
    (kept : safe store) : Runs safe (fileSync file) store () (store.sync file) :=
  runs_sync file kept (syncs store file kept)

theorem bears_safe {low high : Nat} (tolerates : ∀ wal, Tolerates (fun d => P d wal) low high) :
    Bears (Safe P) low high := by
  intro store offset bytes safe above below
  refine safe_write_database safe (fun wal survives => ?_) fun wal count survives _ => ?_
  · exact tolerates wal _ _ _ (safe.over_database survives).content above below
  · refine tolerates wal _ _ _ (safe.over_database survives).content above ?_
    simp only [List.length_take]
    omega

-- The property of undisturbed runs.
def Anywhere (_ : Store) : Prop := True

theorem bears_anywhere (low high : Nat) : Bears Anywhere low high :=
  fun _ _ _ _ _ _ => runs_write _ _ _ trivial trivial fun _ _ => trivial

end Demands

end Timelite.Crashes
