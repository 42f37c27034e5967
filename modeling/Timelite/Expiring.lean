import Timelite.Retaining
import Timelite.Cursor

/-!
Expiration: the kept segments are copied behind the data, published there,
copied back and published again. Undisturbed the content changes from `A` to
`A.expire`; disturbed the database holds one of the two in every image.
-/
namespace Timelite.Expiring
open ByteFile Program Durable Codec CodecLaws Backend BackendLaws Layout HeaderWalk Links SegmentLaws SlotLaws
  Contents Images Crashes Databases Calls Checkpointing Relocation Retaining Cursor Reader Retention BatchApi

section Relocating
variable {strict : Prop} {P : Bytes → Bytes → Prop} {store : Store} {db : Batches} {identity : Bytes} {content : Content}
  {m : Manifests} {cutoff : Nat}

-- A database with segments has a valid slot.
theorem kept_serving (serving : Serving store db identity content m) (occupied : content.segments ≠ [])
    (stored : strict → Stored (store.content .database) identity content m) :
    Kept strict (store.content .database) identity content m := by
  have count := List.length_pos_iff.mpr occupied
  have has := serving.current.occupied (by rw [serving.installed.generation]; omega)
  have bounds := slot_bounds has.2
  have low := bounds.low
  have root := bounds.root
  have size := bounds.size
  exact ⟨fun _ _ other => le_of_eq (slot_has_revision has other), by omega, bounds, serving.installed, stored⟩

/-- The images of an expiration: the old set, frozen or not, or the recovery of the kept one. -/
inductive Relocating (identity : Bytes) (content : Content) (cutoff : Nat) (m : Manifests) (before d : Bytes) : Prop where
  | idle (stored : Stored d identity content m) (length : d.length = before.length) (unpublished : Unpublished m before d) :
      Relocating identity content cutoff m before d
  | frozen (finishing : Finishing identity content d) : Relocating identity content cutoff m before d
  | moved (finishing : Finishing identity (content.expire cutoff) d) : Relocating identity content cutoff m before d

theorem Relocating.held {before d : Bytes} (relocating : Relocating identity content cutoff m before d)
    (phase : m.state.phase = 0) (slack : Slack before content m) :
    Held identity content d ∨ Held identity (content.expire cutoff) d := by
  cases relocating with
  | idle stored length unpublished =>
      exact .inl ⟨m, stored, fun idle => by rw [length]; exact slack idle, fun busy => absurd phase busy⟩
  | frozen finishing => exact .inl finishing.held
  | moved finishing => exact .inr finishing.held

theorem relocate_runs (synced : Synced store) (wide : identity.length = 16)
    (kept : Kept strict (store.content .database) identity content m) (root : m.state.root = 160)
    (room : content.dataEnd + extent (content.kept cutoff) ≤ databaseCapacity)
    (bound : m.state.revision + 5 ≤ uint64Max)
    (weaken : ∀ d, (strict → Relocating identity content cutoff m (store.content .database) d) → P d (store.content .wal))
    (phase : m.state.phase = 0) (tracks : Tracks db content) (revision : db.revision = m.state.revision)
    (retention : db.retention = m.state.enabled) :
    ∃ after revision', Runs (Safe P) (relocate db (content.kept cutoff).length cutoff) store
        ⟨(content.expire cutoff).dataEnd, linkTo 160 (content.kept cutoff) (content.kept cutoff).length,
          ⟨revision', 160, 0, true⟩⟩ after ∧
      Synced after ∧ after.content .wal = store.content .wal ∧
      Stored (after.content .database) identity (content.expire cutoff)
        (retained (content.expire cutoff) revision' 160 0) ∧
      (after.content .database).length = cutLength (content.expire cutoff) ∧
      m.state.revision < revision' ∧ revision' ≤ m.state.revision + 4 ∧
      (strict → Finishing identity (content.expire cutoff) (after.content .database)) := by
  have extentEq := kept.installed.extent
  have held := kept.installed.held
  have whole := content.room
  have sized : extent (content.kept cutoff) ≤ extent content.segments := extent_filter _ _
  have fits := kept.bounded.size
  rw [root] at extentEq held
  rw [extentEq] at fits
  -- Phase 1 freezes the original set.
  have able₁ : Retainable content (m.state.revision + 1) 160 1 :=
    ⟨by omega, by omega, by omega, by omega, whole, rfl⟩
  have frozen : ∀ d, Stored d identity content (retained content (m.state.revision + 1) 160 1) →
      Relocating identity content cutoff m (store.content .database) d := by
    intro d stored
    refine .frozen (.busy _ stored (by simp [retained]) ?_)
    simp only [retained]
    omega
  have cuts₁ : ∀ d, d.length = (store.content .database).length →
      (strict → Stored d identity content m ∧ Unpublished m (store.content .database) d ∨
        Stored d identity content (retained content (m.state.revision + 1) 160 1) ∧ Superseded identity content m d) →
      P d (store.content .wal) := by
    intro d same stored
    refine weaken d fun disturbed => ?_
    rcases stored disturbed with ⟨old, unpublished⟩ | ⟨new, _⟩
    · exact .idle old same unpublished
    · exact frozen d new
  obtain ⟨first, publish₁, synced₁, wal₁, _, stored₁, _⟩ := publish_stage synced wide kept
    (installed_retained kept.installed.pair held able₁) fits able₁ cuts₁
  -- The kept segments are copied behind it.
  have weaken₁ : ∀ d, (strict → Stored d identity content (retained content (m.state.revision + 1) 160 1)) →
      P d (first.content .wal) := by
    intro d stored
    rw [wal₁]
    exact weaken d fun disturbed => frozen d (stored disturbed)
  obtain ⟨second, copy, synced₂, wal₂, kept₂, held₂, length₂⟩ := copy_stage content.dataEnd cutoff true synced₁ wide
    (stored_kept stored₁) weaken₁ (by simp only [Content.dataEnd]; omega) stored₁.fits (.inl (Nat.le_refl _))
  rw [copied_kept] at copy held₂ length₂
  -- Phase 2 makes the copy current.
  have able₂ : Retainable (content.expire cutoff) (m.state.revision + 1 + 1) content.dataEnd 2 := by
    refine ⟨by omega, by omega, by omega, ?_, room, ?_⟩
    · simp only [Content.dataEnd]
      omega
    · change extent (content.kept cutoff) ≤ content.dataEnd - 160
      simp only [Content.dataEnd]
      omega
  have cuts₂ : ∀ d, d.length = (second.content .database).length →
      (strict → Stored d identity content (retained content (m.state.revision + 1) 160 1) ∧
          Unpublished (retained content (m.state.revision + 1) 160 1) (second.content .database) d ∨
        Stored d identity (content.expire cutoff)
          (retained (content.expire cutoff) (m.state.revision + 1 + 1) content.dataEnd 2) ∧
          Superseded identity content (retained content (m.state.revision + 1) 160 1) d) →
      P d (second.content .wal) := by
    intro d _ stored
    rw [wal₂, wal₁]
    refine weaken d fun disturbed => ?_
    rcases stored disturbed with ⟨old, _⟩ | ⟨new, _⟩
    · exact frozen d old
    · refine .moved (.busy _ new (by simp [retained]) ?_)
      simp only [retained]
      omega
  have fresh₂ : Installed (second.content .database) identity (content.expire cutoff)
      (retained (content.expire cutoff) (m.state.revision + 1 + 1) content.dataEnd 2) :=
    installed_retained kept₂.installed.pair held₂ able₂
  obtain ⟨third, publish₂, synced₃, wal₃, _, stored₃, _⟩ :=
    publish_stage synced₂ wide kept₂ fresh₂ length₂ able₂ cuts₂
  -- The rest is the recovery from phase 2.
  have weaken₃ : ∀ d, (strict → Finishing identity (content.expire cutoff) d) → P d (third.content .wal) := by
    intro d finishing
    rw [wal₃, wal₂, wal₁]
    exact weaken d fun disturbed => .moved (finishing disturbed)
  obtain ⟨last, revision', finish, synced₄, wal₄, stored₄, length₄, low, high, finished⟩ :=
    finish_runs synced₃ wide (stored_kept stored₃) (by simp [retained]) (by simp only [retained]; omega)
      (fun _ => by simp only [retained]; omega) weaken₃
  refine ⟨last, revision', ?_, synced₄, by rw [wal₄, wal₃, wal₂, wal₁], stored₄, length₄, ?_, ?_, finished⟩
  · have state : (⟨m.state.revision, 160, 0, m.state.enabled⟩ : RetentionState) = m.state := by
      rw [← root, ← phase]
    unfold relocate
    rw [revision, retention, state, tracks.generation, tracks.dataEnd, tracks.installed, tracks.installedTime,
      tracks.lastSegment]
    exact runs_bind publish₁ (runs_bind copy (runs_bind publish₂ finish))
  · simp only [retained] at low
    omega
  · simp only [retained] at high
    omega

end Relocating

section Expire
variable {strict : Prop} {P : Bytes → Bytes → Prop} {store : Store} {db : Batches} {identity : Bytes} {content : Content}
  {m : Manifests} {cutoff scratchSize position : Nat}

/-- Why a settled handle refuses an expiration. -/
def expireRefusal (content : Content) (m : Manifests) (cutoff scratchSize : Nat) : Option Error :=
  if scratchSize < batchScratch then some .bufferTooSmall
  else if (content.kept cutoff).length = content.segments.length then none
  else if extent (content.kept cutoff) > databaseCapacity - content.dataEnd then some .databaseFull
  else if m.state.revision > uint64Max - 5 then some (.errno .eoverflow)
  else none

theorem expire_large {scratchSize : Nat} (accepted : expireRefusal content m cutoff scratchSize = none) :
    batchScratch ≤ scratchSize := by
  unfold expireRefusal at accepted
  split at accepted
  · cases accepted
  · omega

theorem expire_bounds {scratchSize : Nat} (accepted : expireRefusal content m cutoff scratchSize = none)
    (some : (content.kept cutoff).length ≠ content.segments.length) :
    extent (content.kept cutoff) ≤ databaseCapacity - content.dataEnd ∧ m.state.revision ≤ uint64Max - 5 := by
  unfold expireRefusal at accepted
  split at accepted
  · cases accepted
  split at accepted
  · cases accepted
  split at accepted
  · cases accepted
  · omega

def surveyOf (content : Content) (cutoff : Nat) : Survey :=
  ⟨extent (content.kept cutoff), (content.kept cutoff).length, live (content.kept cutoff)⟩

theorem survey_kept (serving : Serving store db identity content m) :
    on (surveySegments db.dataEnd cutoff (db.dataEnd - 160) 160 ⟨0, 0, 0⟩) store =
      (.ok (surveyOf content cutoff), store) := by
  have chained : Chained store 160 content.dataEnd ([] ++ content.segments) := serving.chained
  have ran := @survey_segments store _ 160 cutoff (content.dataEnd - 160) [] content.segments ⟨0, 0, 0⟩ chained rfl
    (by simp only [Content.dataEnd]; omega)
  rw [serving.tracks.dataEnd]
  simpa [surveyOf, Content.kept] using ran

theorem expire_refused (serving : Serving store db identity content m) (safe : Safe P store) {error : Error}
    (refused : expireRefusal content m cutoff scratchSize = some error) :
    Performs P (batchesExpireBefore db cutoff scratchSize) db store (.error error, db) store := by
  have tracks := serving.tracks
  unfold expireRefusal at refused
  unfold batchesExpireBefore
  rw [serving.read_arguments]
  split at refused
  · rename_i small
    rw [if_pos small]
    rw [Option.some.injEq] at refused
    rw [refused]
    exact calls_done safe
  rename_i large
  rw [if_neg large]
  have reads := reads_surveySegments db.dataEnd cutoff (db.dataEnd - 160) 160 ⟨0, 0, 0⟩
  refine calls_reads safe reads (survey_kept serving) ?_
  simp only [surveyOf, tracks.generation, tracks.dataEnd, serving.revision]
  split at refused
  · cases refused
  rename_i some
  rw [if_neg some]
  split at refused
  · rename_i full
    rw [Option.some.injEq] at refused
    rw [if_pos full, ← refused]
    exact calls_done safe
  rename_i room
  rw [if_neg room]
  split at refused
  · rename_i top
    rw [Option.some.injEq] at refused
    rw [if_pos top, ← refused]
    exact calls_done safe
  · cases refused

-- Nothing expires: the call changes nothing.
theorem expire_nothing (serving : Serving store db identity content m) (safe : Safe P store)
    (large : batchScratch ≤ scratchSize) (all : (content.kept cutoff).length = content.segments.length) :
    Performs P (batchesExpireBefore db cutoff scratchSize) db store (.ok (), db) store := by
  unfold batchesExpireBefore
  rw [serving.read_arguments, if_neg (by omega)]
  have reads := reads_surveySegments db.dataEnd cutoff (db.dataEnd - 160) 160 ⟨0, 0, 0⟩
  refine calls_reads safe reads (survey_kept serving) ?_
  simp only [surveyOf, serving.tracks.generation]
  rw [if_pos all]
  exact calls_done safe

/-- The handle once the kept segments are back in place, before its cursor is found. -/
def trimmed (db : Batches) (content : Content) (cutoff revision : Nat) : Batches :=
  { db with
    failed := true
    generation := (content.kept cutoff).length
    revision := revision
    retention := true
    liveBatches := live (content.kept cutoff)
    dataEnd := (content.expire cutoff).dataEnd
    lastSegment := linkTo 160 (content.kept cutoff) (content.kept cutoff).length
    installedTime := content.installedTime
    spanStart := Layout.spanStart (content.kept cutoff) }

theorem trimmed_tracks (tracks : Tracks db content) (revision : Nat) :
    Tracks (trimmed db content cutoff revision) (content.expire cutoff) where
  database := tracks.database
  wal := tracks.wal
  walEnd := tracks.walEnd
  sequence := tracks.sequence
  dataEnd := rfl
  installed := tracks.installed
  generation := rfl
  liveBatches := rfl
  lastTime := tracks.lastTime
  installedTime := rfl
  lastSegment := rfl
  spanStart := rfl
  walOrdered := tracks.walOrdered
  walSpan := tracks.walSpan

theorem exposed_expire {item : Nat × Batch} (member : item ∈ (content.expire cutoff).exposed) :
    item ∈ content.exposed := by
  rcases List.mem_append.mp member with installed | queued
  · obtain ⟨segment, inside, found⟩ := List.mem_flatMap.mp installed
    exact List.mem_append.mpr (.inl (List.mem_flatMap.mpr ⟨segment, List.mem_of_mem_filter inside, found⟩))
  · exact List.mem_append.mpr (.inr queued)

-- Positions with the same batches ahead keep them in common.
theorem due_expire {wanted : Nat} (same : due content wanted = due content position) :
    due (content.expire cutoff) wanted = due (content.expire cutoff) position := by
  refine List.filter_congr fun item member => ?_
  have before := exposed_expire member
  have left : item ∈ due content wanted ↔ item ∈ due content position := by rw [same]
  simp only [due, List.mem_filter, before, true_and, decide_eq_true_eq] at left
  exact decide_eq_decide.mpr left

theorem ahead_low {wanted : Nat} {rest : List (Nat × Batch)} (ahead : Ahead db content wanted rest) :
    0 < wanted ∧ wanted ≤ content.high + 1 := by
  have covered := content.covered
  simp only [Content.high]
  cases ahead with
  | boundary front back wanted split here cursor ends expects past before low => omega
  | inside front back segment done todo split batches more here cursor ends expects =>
      have member : segment ∈ content.segments := by rw [split]; simp
      have last := (last_le_of_mem content.increasing member).2
      have count := segment.count_eq
      have order := segment.first_le_last
      have counted := segment.counted
      have length := congrArg List.length batches
      rw [List.length_append] at length
      omega
  | wal done todo split here cursor expects =>
      have length := congrArg List.length split
      rw [List.length_append] at length
      omega

/-- An expiration that removes something. The cursor finds its place again. -/
theorem expire_performs (serving : Serving store db identity content m)
    (accepted : expireRefusal content m cutoff scratchSize = none)
    (some : (content.kept cutoff).length ≠ content.segments.length)
    (delivers : Delivers db content position)
    (before : strict → Stored (store.content .database) identity content m)
    (weaken : ∀ d, (strict → Relocating identity content cutoff m (store.content .database) d) → P d (store.content .wal)) :
    ∃ after db' revision', Performs P (batchesExpireBefore db cutoff scratchSize) db store (.ok (), db') after ∧
      Stored (after.content .database) identity (content.expire cutoff)
        (retained (content.expire cutoff) revision' 160 0) ∧
      Settled after db' identity (content.expire cutoff) (retained (content.expire cutoff) revision' 160 0) ∧
      Delivers db' (content.expire cutoff) position ∧
      m.state.revision < revision' ∧ revision' ≤ m.state.revision + 4 ∧
      (strict → Finishing identity (content.expire cutoff) (after.content .database)) := by
  have tracks := serving.tracks
  obtain ⟨low, wanted, ahead⟩ := delivers
  have place := ahead_low ahead
  have numbered := content.numbered
  have high : content.high = content.installed + content.pending.length := rfl
  simp only [uint64Max] at numbered
  have occupied : content.segments ≠ [] := by
    intro none
    rw [Content.kept, none] at some
    exact some rfl
  have large : ¬ scratchSize < batchScratch := Nat.not_lt.mpr (expire_large accepted)
  have fits : ¬ extent (content.kept cutoff) > databaseCapacity - content.dataEnd :=
    Nat.not_lt.mpr (expire_bounds accepted some).1
  have top : ¬ m.state.revision > uint64Max - 5 := Nat.not_lt.mpr (expire_bounds accepted some).2
  have room := content.room
  have kept : Kept strict (store.content .database) identity content m :=
    kept_serving serving occupied before
  have safe := safe_synced serving.synced (weaken _ fun disturbed =>
    .idle (kept.stored disturbed) rfl (unpublished_refl (kept.stored disturbed).current))
  have poisoned : Tracks { db with failed := true } content := { tracks with }
  obtain ⟨after, revision', moved, synced, wal, stored, length, above, below, finished⟩ :=
    relocate_runs serving.synced serving.wide kept serving.root
      (by simp only [Content.dataEnd] at *; omega) (by simp only [uint64Max] at *; omega) weaken serving.phase poisoned
      serving.revision serving.retention
  -- The header walk reads the copy back.
  have check := check_installed stored.installed
  -- The cursor is found on the trimmed handle.
  have reading : Reading after (trimmed db content cutoff revision') (content.expire cutoff) :=
    { tracks := trimmed_tracks tracks revision'
      chained := stored.installed.chained
      queued := by
        rw [wal]
        exact serving.frames_held
      gapless := fun off => by cases off }
  obtain ⟨db', wanted', found, same, ahead'⟩ := relocate_due reading place.1 (by omega)
  rw [← ahead.expects] at found
  have checked : Runs (Safe P) (checkSegments (content.kept cutoff).length (content.expire cutoff).dataEnd
      db.installed (linkTo 160 (content.kept cutoff) (content.kept cutoff).length) db.installedTime true
      ⟨revision', 160, 0, true⟩) after (checkedOf 160 (content.expire cutoff)) after := by
    rw [tracks.installed, tracks.installedTime]
    exact (reads_checkSegments _ _ _ _ _ _ _).runs moved.safe_after check
  have walked := (reads_relocateCursor _ _ _).runs moved.safe_after found
  refine ⟨after, { db' with failed := false }, revision', ?_, stored, ?_, ?_, above, below, finished⟩
  · unfold batchesExpireBefore
    rw [serving.read_arguments, if_neg large]
    have reads := reads_surveySegments db.dataEnd cutoff (db.dataEnd - 160) 160 ⟨0, 0, 0⟩
    refine calls_reads safe reads (survey_kept serving) ?_
    have some' : ¬ (surveyOf content cutoff).segments = db.generation := by
      rw [tracks.generation]
      exact some
    have fits' : ¬ (surveyOf content cutoff).bytes > databaseCapacity - db.dataEnd := by
      rw [tracks.dataEnd]
      exact fits
    rw [← serving.revision] at top
    rw [if_neg some', if_neg fits', if_neg top]
    exact calls_of_does (does_attempt rfl moved (does_attempt rfl checked (does_attempt rfl walked
      (.done moved.safe_after))))
  · have tracks' := moved_tracks same (moved_tracks (show Moved (trimmed db content cutoff revision')
      (resetCursor (trimmed db content cutoff revision')) from rfl) reading.tracks)
    exact
      { synced := synced
        wide := serving.wide
        tracks := { tracks' with }
        ready := rfl
        revision := by
          rw [← same]
          rfl
        retention := by
          rw [← same]
          rfl
        legacy := by
          have modern := kept.bounded.modern
          have old := serving.legacy
          rw [modern] at old
          rw [← same]
          exact old
        phase := rfl
        root := rfl
        chosen := selected_chosen stored.current
        installed := stored.installed
        logged := by
          rw [wal]
          exact ⟨serving.logged.bytes, serving.logged.torn, serving.logged.more, serving.logged.fits⟩
        slack := slack_cut length }
  · rw [due_expire ahead.due.symm] at ahead'
    exact ⟨low, wanted', ahead'.fields rfl rfl rfl rfl⟩

end Expire

end Timelite.Expiring
