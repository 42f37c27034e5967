import Timelite.Calls

/-!
Append: when it is refused, and that an accepted batch adds exactly its frame to
the WAL, in two synced steps whose every cut leaves a prefix of the frame.
-/
namespace Timelite.Appending
open ByteFile Program Durable Codec Backend BackendLaws Layout HeaderWalk WalLaws Contents Images Crashes Calls
  Reader BatchApi Spans

section Order

theorem times_from {floor : Nat} {records : List Record} :
    timesFrom floor records = true ↔
      rising (records.map (·.timestamp.toNat)) = true ∧
        ∀ record, records.head? = some record → floor ≤ record.timestamp.toNat := by
  induction records generalizing floor with
  | nil => simp [timesFrom]
  | cons record rest ih =>
      rw [timesFrom, Bool.and_eq_true, decide_eq_true_eq, ih, List.map_cons, ← List.singleton_append,
        rising_append]
      have single : rising [record.timestamp.toNat] = true := by simp [rising]
      have final : finalOf [record.timestamp.toNat] = record.timestamp.toNat := rfl
      rw [single, final]
      cases rest with
      | nil => simp
      | cons next rest =>
          have first : firstOf ((next :: rest).map (·.timestamp.toNat)) = next.timestamp.toNat := rfl
          rw [first]
          simp only [List.head?_cons, Option.some.injEq, forall_eq', Bool.true_and, List.isEmpty_cons,
            Bool.false_or, List.map_cons, Bool.and_eq_true, decide_eq_true_eq]
          tauto

theorem first_time (batch : Batch) : BatchApi.firstTime batch.records = firstOf batch.times := by
  rw [firstOf, Batch.times, List.head?_map]
  rfl

theorem final_time (batch : Batch) : BatchApi.finalTime batch.records = finalOf batch.times := by
  rw [finalOf, Batch.times, List.getLast?_map]
  rfl

/-- The order `append` demands: inside the batch, and from the floor on once
anything was ever committed. -/
def Ordered (content : Content) (batch : Batch) : Prop :=
  rising batch.times = true ∧ (content.high ≠ 0 → content.floor ≤ firstOf batch.times)

theorem ordered_of_times {content : Content} {batch : Batch}
    (passes : timesFrom (if content.high ≠ 0 then content.floor else 0) batch.records = true) :
    Ordered content batch := by
  obtain ⟨sorted, above⟩ := times_from.mp passes
  refine ⟨sorted, fun some => ?_⟩
  rw [if_pos some] at above
  rw [← first_time, BatchApi.firstTime, List.head?_eq_some_head batch.occupied]
  exact above _ (List.head?_eq_some_head batch.occupied)

-- An accepted batch continues the order of the pending ones.
theorem rising_append_batch {content : Content} {batch : Batch} (ordered : Ordered content batch) :
    rising (timesOf (content.pending ++ [batch])) = rising (timesOf content.pending) := by
  rw [times_append, times_cons, times_nil, List.append_nil, rising_append, ordered.1, Bool.and_true]
  by_cases none : content.pending = []
  · simp [none]
  · have some := List.length_pos_iff.mpr none
    have above := ordered.2 (by simp only [Content.high]; omega)
    rw [Content.floor, ← final_times content.pending content.installedTime none] at above
    simp [above]

end Order

section Refusal

/-- Why a settled handle refuses an append. -/
def appendRefusal (content : Content) (records : List Record) (scratchSize : Nat) : Option Error :=
  if records.length = 0 ∨ records.length > maxRecords then some (.errno .einval)
  else if scratchSize < batchScratch then some .bufferTooSmall
  else if timesFrom (if content.high ≠ 0 then content.floor else 0) records = false then some .outOfOrder
  else if 64 + records.length * 20 > walCapacity - content.walEnd then some .walFull
  else if content.high = uint64Max then some (.errno .eoverflow)
  else none

variable {store : Store} {db : Batches} {identity : Bytes} {content : Content} {m : Manifests}

theorem append_cases (serving : Serving store db identity content m) (records : List Record)
    (scratchSize : Nat) :
    batchesAppend db records scratchSize =
      match appendRefusal content records scratchSize with
      | some error => refuse db error
      | none => attempt { db with failed := true } (writeFrame db records) fun _ =>
          succeed (appended db records) (db.sequence + 1) := by
  have tracks := serving.tracks
  have size : 32 + records.length * 20 + 32 = 64 + records.length * 20 := by omega
  rw [batchesAppend, serving.batch_ready, appendRefusal]
  simp only [appendFloor, tracks.sequence, tracks.lastTime, tracks.walEnd, size]
  by_cases count : records.length = 0 ∨ records.length > maxRecords
  · rw [if_pos count, if_pos count]
  rw [if_neg count, if_neg count]
  by_cases scratch : scratchSize < batchScratch
  · rw [if_pos scratch, if_pos scratch]
  rw [if_neg scratch, if_neg scratch]
  by_cases order : timesFrom (if content.high ≠ 0 then content.floor else 0) records = false
  · rw [if_pos order, if_pos order]
  rw [if_neg order, if_neg order]
  by_cases full : 64 + records.length * 20 > walCapacity - content.walEnd
  · rw [if_pos full, if_pos full]
  rw [if_neg full, if_neg full]
  by_cases top : content.high = uint64Max
  · rw [if_pos top, if_pos top]
  · rw [if_neg top, if_neg top]

/-- What an accepted append has passed. -/
structure Accepted (content : Content) (batch : Batch) : Prop where
  ordered : Ordered content batch
  space : content.walEnd + batch.size ≤ walCapacity
  more : content.high < uint64Max

theorem accepted_of_none {records : List Record} {scratchSize : Nat}
    (none : appendRefusal content records scratchSize = none) :
    ∃ batch : Batch, batch.records = records ∧ Accepted content batch := by
  unfold appendRefusal at none
  generalize floorEq : (if content.high ≠ 0 then content.floor else 0) = floor at none
  split at none
  · cases none
  rename_i count
  split at none
  · cases none
  split at none
  · cases none
  rename_i order
  split at none
  · cases none
  rename_i full
  split at none
  · cases none
  rename_i top
  have some : records ≠ [] := by
    rintro rfl
    exact count (.inl rfl)
  have few : records.length ≤ maxRecords := by omega
  have numbered := content.numbered
  have fits := content.fits
  refine ⟨⟨records, some, few⟩, rfl, ordered_of_times (by rw [floorEq]; simpa using order), ?_, ?_⟩
  · simp only [Content.walEnd] at full ⊢
    simp only [Batch.size]
    omega
  · simp only [Content.high] at top ⊢
    omega

theorem append_passes {records : List Record} {scratchSize : Nat}
    (none : appendRefusal content records scratchSize = none) :
    batchScratch ≤ scratchSize ∧ timesFrom (if content.high ≠ 0 then content.floor else 0) records = true := by
  unfold appendRefusal at none
  generalize (if content.high ≠ 0 then content.floor else 0) = floor at none ⊢
  split at none
  · cases none
  split at none
  · cases none
  split at none
  · cases none
  · rename_i order
    exact ⟨by omega, by simpa using order⟩

end Refusal

section Writing
variable {P : Bytes → Bytes → Prop} {store : Store} {db : Batches}

theorem runs_append_wal {bytes : Bytes} (safe : Safe P store) (synced : Synced store)
    (torn : ∀ count, P (store.content .database) (store.content .wal ++ bytes.take count)) :
    Runs (Safe P) (writeExact .wal (store.content .wal).length bytes) store ()
      (store.update .wal (.write (store.content .wal).length bytes)) := by
  refine safe_write_wal safe fun database count survives => ?_
  rw [synced_disk synced] at survives
  rw [survives_settled survives, write_at_end]
  exact torn count

theorem write_frame {records : List Record} (safe : Safe P store) (synced : Synced store)
    (place : db.walEnd = (store.content .wal).length)
    (torn : ∀ count, P (store.content .database)
      (store.content .wal ++ (frame (db.sequence + 1) records).take count)) :
    ∃ after, Runs (Safe P) (writeFrame db records) store () after ∧ Synced after ∧
      after.content .database = store.content .database ∧
      after.content .wal = store.content .wal ++ frame (db.sequence + 1) records := by
  -- The body and the commit are the two parts of the frame.
  have bodyTorn : ∀ count, P (store.content .database)
      (store.content .wal ++ (frameBody (db.sequence + 1) records).take count) := by
    intro count
    have part := torn (min count (frameBody (db.sequence + 1) records).length)
    rw [frame, List.take_append_of_le_length (by omega), ← List.take_eq_take_min] at part
    exact part
  have first := runs_append_wal safe synced bodyTorn
  have second := runs_sync .wal first.safe_after (first.safe_after.sync .wal)
  have synced' := synced_sync_update synced .wal
    (.write (store.content .wal).length (frameBody (db.sequence + 1) records))
  generalize middleEq : (store.update .wal
    (.write (store.content .wal).length (frameBody (db.sequence + 1) records))).sync .wal = middle at *
  have wal : middle.content .wal = store.content .wal ++ frameBody (db.sequence + 1) records := by
    rw [← middleEq, content_sync, content_update_same]
    exact write_at_end _ _
  have database : middle.content .database = store.content .database := by
    rw [← middleEq, content_sync, content_update_wal]
  have commitTorn : ∀ count, P (middle.content .database)
      (middle.content .wal ++ (frameCommit (db.sequence + 1) records).take count) := by
    intro count
    have part := torn ((frameBody (db.sequence + 1) records).length + count)
    rw [frame, List.take_length_add_append, ← List.append_assoc] at part
    rw [wal, database]
    exact part
  have third := runs_append_wal second.safe_after synced' commitTorn
  have fourth := runs_sync .wal third.safe_after (third.safe_after.sync .wal)
  refine ⟨(middle.update .wal
    (.write (middle.content .wal).length (frameCommit (db.sequence + 1) records))).sync .wal, ?_, ?_, ?_, ?_⟩
  · have offset : (middle.content .wal).length =
        (store.content .wal).length + (frameBody (db.sequence + 1) records).length := by
      rw [wal, List.length_append]
    rw [offset] at third fourth ⊢
    simp only [writeFrame, place]
    exact runs_bind first (runs_bind second (runs_bind third fourth))
  · exact synced_sync_update synced' .wal _
  · rw [content_sync, content_update_wal, database]
  · rw [content_sync, content_update_same]
    refine (write_at_end _ _).trans ?_
    rw [wal, frame, List.append_assoc]

end Writing

section Append
variable {P : Bytes → Bytes → Prop} {store : Store} {db : Batches} {identity : Bytes} {content : Content}
  {m : Manifests}

theorem appended_tracks (tracks : Tracks db content) {batch : Batch} (accepted : Accepted content batch) :
    Tracks (appended db batch.records) (content.append batch accepted.more accepted.space) := by
  have sorted := accepted.ordered.1
  have fresh : db.walEnd = 32 ↔ content.pending = [] := by
    rw [tracks.walEnd, Content.walEnd, ← frames_size_eq_zero]
    omega
  have some := batch_times_ne batch
  have joined : timesOf (content.pending ++ [batch]) = timesOf content.pending ++ batch.times := by simp
  exact
    { database := tracks.database
      wal := tracks.wal
      walEnd := by
        simp only [appended, tracks.walEnd, Content.walEnd, Content.append, frames_size_append,
          frames_size_cons, frames_size_nil, Batch.size]
        omega
      sequence := by
        simp only [appended, tracks.sequence, Content.high, Content.append, List.length_append,
          List.length_singleton]
        omega
      dataEnd := tracks.dataEnd
      installed := tracks.installed
      generation := tracks.generation
      liveBatches := tracks.liveBatches
      lastTime := by
        simp only [appended, Content.floor, Content.append, last_time_snoc]
        rw [final_time, batch_final]
      installedTime := tracks.installedTime
      lastSegment := tracks.lastSegment
      spanStart := tracks.spanStart
      walOrdered := by
        have same := rising_append_batch accepted.ordered
        simp only [appended, tracks.walOrdered, Content.append]
        exact same.symm
      walSpan := by
        intro _
        have spans := tracks.walSpan
        simp only [appended, Content.append, joined, first_time, final_time, first_append,
          least_append _ _ some, greatest_append _ _ some, rising_least sorted, rising_greatest sorted,
          times_eq_nil, fresh]
        by_cases none : content.pending = []
        · simp [none]
        · obtain ⟨first, least, greatest⟩ := spans none
          simp only [none, if_false, first, least, greatest, true_and]
          constructor
          · split <;> omega
          · split <;> omega }

-- The files after the append, and what the slack behind the data allows.
theorem logged_append {w : Bytes} {batch : Batch} (logged : Logged w identity content []) (wide : identity.length = 16)
    (accepted : Accepted content batch) :
    Logged (w ++ frame (content.high + 1) batch.records) identity
      (content.append batch accepted.more accepted.space) [] := by
  have bytes := logged.bytes
  have order : content.installed + 1 + content.pending.length = content.high + 1 := by
    simp only [Content.high]
    omega
  have length : w.length = content.walEnd := by
    rw [bytes]
    simp only [List.append_nil, List.length_append, Images.wal_length wide, frames_length, Content.walEnd]
  refine ⟨?_, .none, fun some => absurd rfl some, ?_⟩
  · rw [bytes]
    simp only [Content.append, frames_append, frames_cons, frames_nil, List.append_nil, order, List.append_assoc]
  · rw [List.length_append, length, frame_length]
    exact accepted.space

theorem slack_append {d : Bytes} {batch : Batch} (slack : Slack d content m) (more : content.high < uint64Max)
    (space : content.walEnd + batch.size ≤ walCapacity) : Slack d (content.append batch more space) m := by
  intro phase
  rcases slack phase with short | marker | ⟨_, orphan⟩
  · exact .inl short
  · exact .inr (.inl marker)
  · refine .inr (.inr ⟨by simp [Content.append], ?_⟩)
    simp only [Content.append, frames_size_append]
    omega

theorem append_serving (serving : Serving store db identity content m) {batch : Batch}
    (accepted : Accepted content batch) {after : Store} (synced : Synced after)
    (database : after.content .database = store.content .database)
    (wal : after.content .wal = store.content .wal ++ frame (content.high + 1) batch.records) :
    Serving after (appended db batch.records) identity
      (content.append batch accepted.more accepted.space) m where
  synced := synced
  wide := serving.wide
  tracks := appended_tracks serving.tracks accepted
  ready := rfl
  revision := serving.revision
  retention := serving.retention
  legacy := serving.legacy
  phase := serving.phase
  root := serving.root
  current := by rw [database]; exact serving.current
  installed := by rw [database]; exact serving.installed.same rfl rfl rfl
  logged := by
    rw [wal]
    exact logged_append serving.logged serving.wide accepted

/-- An accepted append commits the batch under the next sequence number. -/
theorem append_performs (serving : Serving store db identity content m) {batch : Batch}
    (accepted : Accepted content batch) {scratchSize : Nat}
    (none : appendRefusal content batch.records scratchSize = none) (safe : Safe P store)
    (torn : ∀ count, P (store.content .database)
      (store.content .wal ++ (frame (content.high + 1) batch.records).take count)) :
    ∃ after, Performs P (batchesAppend db batch.records scratchSize) db store
        (.ok (content.high + 1), appended db batch.records) after ∧
      Serving after (appended db batch.records) identity
        (content.append batch accepted.more accepted.space) m ∧
      after.content .database = store.content .database := by
  have sequence := serving.tracks.sequence
  rw [← sequence] at torn
  have place : db.walEnd = (store.content .wal).length := by
    rw [serving.tracks.walEnd, serving.wal_length]
  obtain ⟨after, runs, synced, database, wal⟩ := write_frame safe serving.synced place torn
  rw [sequence] at wal
  refine ⟨after, ?_, append_serving serving accepted synced database wal, database⟩
  rw [append_cases serving, none]
  refine calls_of_does (does_attempt rfl runs ?_)
  rw [sequence]
  exact .done runs.safe_after

end Append

end Timelite.Appending
