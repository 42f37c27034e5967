import Timelite.Decoding
import Timelite.Observing

/-!
An undisturbed open of two existing files, whatever bytes they hold: the result
is that of validation and recovery.
-/
namespace Timelite.Undisturbed
open ByteFile Program Durable Codec CodecLaws Backend BackendLaws Layout FrameLaws HeaderWalk SlotLaws WalLaws Images
  Crashes Reader Retention BatchApi Opening System

/-- Both files exist. -/
def Present (store : Store) : Prop := store.database.isSome = true ∧ store.wal.isSome = true

/-- The part of open that reads the files. -/
def recovering : Io Batches := do
  let v ← validatePair
  recoverPair v

section Open
variable {store : Store} {db : Batches} {mode : OpenMode} {scratchSize : Nat}

theorem present_safe (present : Present store) : Safe (fun _ _ => True) store :=
  ⟨present.1, present.2, fun _ _ _ => trivial⟩

theorem release_run (owned : Owned) : Prog.run device (release owned) store = ((), store) :=
  (@does_release store (fun _ => True) owned trivial).run_eq

theorem run_op {α β : Type} (program : Prog Reply α) (next : α → Op β) (store : Store) :
    Prog.run device (Prog.bind program next : Op β) store =
      Prog.run device (next (Prog.run device program store).1) (Prog.run device program store).2 :=
  run_bind device program next store

theorem fail_open_run (owned : Owned) (error : Error) :
    Prog.run device (failOpen db owned error) store = ((.error error, db), store) := by
  refine (run_op (release owned) (fun _ => refuse db error) store).trans ?_
  rw [release_run]
  rfl

theorem companion_run (present : Present store) :
    Prog.run device openCompanion store =
      match on (pairHeader .database databaseMagic) store with
      | (.ok _, _) => ((.ok (), ⟨true, true⟩), store)
      | (.error error, _) => ((.error error, ⟨true, false⟩), store) := by
  have state := (reads_pairHeader .database databaseMagic).on_state store
  have opened : Backend.serve (.open .wal) store = (.ok (), store) := open_served (present_safe present) .wal
  have front : on (do fileLock .database; let _ ← pairHeader .database databaseMagic : Io Unit) store =
      ((on (pairHeader .database databaseMagic) store).1.map fun _ => (), store) := by
    rw [on_bind_ok (on_lock _ _), on_bind]
    cases read : on (pairHeader .database databaseMagic) store with
    | mk result after =>
        rw [read] at state
        simp only at state
        subst state
        cases result <;> rfl
  refine (run_bind device (do fileLock .database; let _ ← pairHeader .database databaseMagic : Io Unit) _ store).trans ?_
  rw [show Prog.run device (do fileLock .database; let _ ← pairHeader .database databaseMagic : Io Unit) store = _ from
    front]
  cases read : on (pairHeader .database databaseMagic) store with
  | mk result after =>
      cases result with
      | error error => rfl
      | ok header =>
          simp only [Except.map, Prog.run]
          rw [show (device.serve (.open .wal) store) = (.ok (), store) from opened]
          rfl

-- A header that open refuses is refused again by validation, so the first reading can be left out.
theorem open_run (present : Present store) (closed : db.database = false ∧ db.wal = false)
    (large : batchScratch ≤ scratchSize) (old : mode ≠ .createNew) :
    Prog.run device (batchesOpen db mode scratchSize) store =
      match on recovering store with
      | (.ok handle, after) => ((.ok (), handle), after)
      | (.error error, after) => ((.error error, db), after) := by
  have acquired := (acquire_does (present_safe present) old).run_eq
  rw [open_acquires closed large]
  refine (run_op (acquire mode) _ store).trans ?_
  rw [acquired]
  refine (run_op openCompanion _ store).trans ?_
  rw [companion_run present]
  have header := (reads_pairHeader .database databaseMagic).on_eq store
  cases read : (on (pairHeader .database databaseMagic) store).1 with
  | error error =>
      rw [read] at header
      have refused : on recovering store = (.error error, store) := by
        rw [recovering, on_bind_error]
        unfold validatePair
        exact on_bind_error header
      rw [header, refused]
      exact fail_open_run _ _
  | ok value =>
      rw [read] at header
      rw [header]
      refine (run_op recovering _ store).trans ?_
      change Prog.run device _ (on recovering store).2 = _
      rw [show Prog.run device recovering store = on recovering store from rfl]
      cases ran : on recovering store with
      | mk result after =>
          cases result with
          | error error => exact fail_open_run _ _
          | ok handle => rfl

theorem call_open (present : Present store) (closed : db.database = false ∧ db.wal = false)
    (large : batchScratch ≤ scratchSize) (old : mode ≠ .createNew) :
    Host.call ⟨store, db⟩ (.openPair mode scratchSize) =
      match on recovering store with
      | (.ok handle, after) => (.ok .none, ⟨after, handle⟩)
      | (.error error, after) => (.error error, ⟨after, db⟩) := by
  have ran := open_run present closed large old
  cases recovered : on recovering store with
  | mk result after =>
      rw [recovered] at ran
      cases result with
      | error error =>
          have whole : Prog.run device (Act.perform db (.openPair mode scratchSize)) store = ((.error error, db), after) :=
            Refinement.run_answering ran
          rw [Host.call, whole]
      | ok handle =>
          have whole : Prog.run device (Act.perform db (.openPair mode scratchSize)) store = ((.ok .none, handle), after) :=
            Refinement.run_answering ran
          rw [Host.call, whole]

end Open

section Sides
variable {store : Store} {identity : Bytes} {m : Manifests} {checked : Checked}

/-- What open checks of the database alone. -/
structure DatabaseSide (store : Store) (identity : Bytes) (m : Manifests) (checked : Checked) : Prop where
  wide : identity.length = 16
  pair : Holds (store.content .database) 0 (encodePair databaseMagic identity)
  found : chosen (store.content .database) = some m
  chain : on (checkSegments m.generation m.dataEnd m.last m.tail m.lastTime m.hasTime m.state) store =
    (.ok checked, store)

/-- What open checks of the WAL after the database. -/
def readWal (m : Manifests) (checked : Checked) (databaseSize size : Nat) : Io Validated := do
  let stale ← staleSequence m.last size
  let scan ← scanWal size stale.isSome size (startScan (stale.getD m.last))
  Io.require (stale.isSome = true → scan.sequence = m.last) .invalidDatabase
  Io.require (¬ (databaseSize > m.dataEnd ∧ m.state.phase = 0 ∧
    ¬ (m.state.enabled = true ∧ m.generation = 0 ∧ databaseSize = 161) ∧
    (stale.isSome = true ∨ scan.sequence = m.last))) .invalidDatabase
  pure ⟨m, checked, stale.isSome, scan, size⟩

theorem validate_sides (side : DatabaseSide store identity m checked)
    (walPair : Holds (store.content .wal) 0 (encodePair walMagic identity))
    (fits : (store.content .wal).length ≤ walCapacity) :
    on validatePair store =
      on (readWal m checked (store.content .database).length (store.content .wal).length) store := by
  have some : encodePair walMagic identity ≠ [] := by
    intro none
    have length := wal_length side.wide
    rw [none] at length
    cases length
  have room := walPair.length_le some
  rw [wal_length side.wide] at room
  unfold validatePair
  rw [on_bind_ok (pair_header side.pair rfl side.wide), on_bind_ok (pair_header walPair rfl side.wide),
    on_require_bind, if_pos (by rw [pair_identity rfl side.wide, pair_identity rfl side.wide]),
    on_bind_ok (on_size _ _), on_bind_ok (read_chosen side.found), on_bind_ok side.chain,
    on_bind_ok (on_size _ _), on_require_bind, if_pos ⟨by omega, fits⟩]
  rfl

/-- Recovery outside of a retention: provision both files and cut the WAL. -/
theorem recover_idle {v : Validated} (idle : v.manifests.state.phase = 0) :
    on (recoverPair v) store =
      (.ok (v.handle ⟨v.manifests.dataEnd, v.checked.tail, v.manifests.state⟩),
        if v.walOffset < v.walSize then
          (((store.sync .database).sync .wal).update .wal (.truncate v.walOffset)).sync .wal
        else (store.sync .database).sync .wal) := by
  have finished : on (finishPair v) ((store.sync .database).sync .wal) =
      (.ok ⟨v.manifests.dataEnd, v.checked.tail, v.manifests.state⟩, (store.sync .database).sync .wal) := by
    rw [finishPair, if_neg (not_not.mpr idle)]
    rfl
  unfold recoverPair
  rw [on_bind_ok (on_provision _ _), on_bind_ok (on_provision _ _), on_bind_ok finished]
  by_cases more : v.walOffset < v.walSize
  · rw [if_pos more, if_pos more, on_bind_ok (on_truncate _ _ _), on_bind_ok (on_sync _ _)]
    rfl
  · rw [if_neg more, if_neg more]
    rfl

end Sides

end Timelite.Undisturbed
