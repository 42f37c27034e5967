import Timelite.Creating

/-!
What an interrupted call leaves: every pair of images that survives a cut append,
checkpoint or expiration holds the content before the call or the content after
it. `Live` is a handle between calls on a pair made by the library.
-/
namespace Timelite.Atomicity
open ByteFile Program Durable Codec CodecLaws Backend BackendLaws Layout FrameLaws HeaderWalk SegmentLaws SlotLaws
  WalLaws Contents Images Crashes Databases Calls Appending Checkpointing Retaining Cursor Expiring Reader Retention
  BatchApi Opening Creating
variable {clean : Prop} {store : Store} {db : Batches} {identity : Bytes} {content : Content} {m : Manifests}
  {position : Nat}

structure Live (store : Store) (db : Batches) (identity : Bytes) (content : Content) (m : Manifests)
    (position : Nat) : Prop where
  settled : Settled store db identity content m
  stored : Stored (store.content .database) identity content m
  delivers : Delivers db content position

theorem Live.held (live : Live store db identity content m position) :
    Held identity content (store.content .database) :=
  ⟨m, live.stored, live.settled.slack, fun busy => absurd live.settled.phase busy⟩

theorem Live.recovers (live : Live store db identity content m position) :
    Recovers clean identity content (store.content .database) (store.content .wal) :=
  ⟨live.held, .logged [] live.settled.logged fun _ => .inl rfl⟩

section Append
variable {batch : Batch}

/-- A cut frame is a torn tail, a whole one a committed batch. -/
theorem append_image (settled : Settled store db identity content m) (accepted : Accepted content batch)
    (count : Nat) :
    if count < batch.size then
      Logged (store.content .wal ++ (frame (content.high + 1) batch.records).take count) identity content
        ((frame (content.high + 1) batch.records).take count)
    else
      Logged (store.content .wal ++ (frame (content.high + 1) batch.records).take count) identity
        (content.append batch accepted.more accepted.space) [] := by
  have bytes := settled.logged.bytes
  rw [List.append_nil] at bytes
  have length := settled.serving.wal_length
  have space := accepted.space
  split
  · rename_i short
    refine ⟨by rw [bytes], .cut batch count short, fun _ => accepted.more, ?_⟩
    rw [List.length_append, List.length_take, length]
    omega
  · rename_i whole
    rw [List.take_of_length_le (by rw [frame_length]; exact Nat.not_lt.mp whole)]
    exact logged_append settled.logged settled.wide accepted

theorem held_append {d : Bytes} (held : Held identity content d) (more : content.high < uint64Max)
    (space : content.walEnd + batch.size ≤ walCapacity) : Held identity (content.append batch more space) d := by
  obtain ⟨m, stored, slack, bound⟩ := held
  exact ⟨m, ⟨stored.current, stored.guarded, stored.installed.same rfl rfl rfl⟩, slack_append slack more space, bound⟩

end Append

section Checkpoint
variable {P : Bytes → Bytes → Prop}

/-- The images before the new manifest. -/
def Installing (identity : Bytes) (content : Content) (m : Manifests) (d : Bytes) : Prop :=
  Stored d identity content m ∧ d.length ≤ newEnd content

theorem installing_tolerates (wide : identity.length = 16) (extent : m.dataEnd = content.dataEnd) :
    Tolerates (Installing identity content m) content.dataEnd (newEnd content) := by
  rintro file offset bytes ⟨stored, short⟩ above below
  have bound := write_bound file offset bytes
  have low : 160 ≤ content.dataEnd := Nat.le_add_right _ _
  refine ⟨stored.write wide (by omega) (.inl (by omega)), by omega⟩

theorem installing_bears (wide : identity.length = 16) (extent : m.dataEnd = content.dataEnd) (before : Bytes) :
    Tolerates (fun d => Installing identity content m d ∧ Unpublished m before d) content.dataEnd (newEnd content) := by
  rintro file offset bytes ⟨installing, unpublished⟩ above below
  have low : 160 ≤ content.dataEnd := Nat.le_add_right _ _
  exact ⟨installing_tolerates wide extent file offset bytes installing above below,
    unpublished.write installing.1 wide (by omega) (by omega)⟩

theorem upgraded_modern {d : Bytes} (modern : m.legacy = false) : upgraded m d = d := by
  rw [upgraded, modern]
  rfl

theorem installing_start (settled : Settled store db identity content m)
    (stored : Stored (store.content .database) identity content m) (some : content.pending ≠ []) :
    Installing identity content m (store.content .database) := by
  have bound := upgraded_bound settled some
  rw [upgraded_modern (selected_bounds stored.current).modern] at bound
  exact ⟨stored, bound⟩

theorem installing_segment (settled : Settled store db identity content m)
    (stored : Stored (store.content .database) identity content m) (some : content.pending ≠ []) :
    Installing identity content m (withSegment content m (store.content .database) some) ∧
      Unpublished m (store.content .database) (withSegment content m (store.content .database) some) := by
  have extent : m.dataEnd = content.dataEnd := by
    rw [settled.installed.extent, settled.root]
    rfl
  rw [withSegment, upgraded_modern (selected_bounds stored.current).modern]
  refine installing_bears settled.wide extent _ _ _ _ ⟨installing_start settled stored some, unpublished_refl stored.current⟩
    (Nat.le_refl _) ?_
  rw [install_image_length, newEnd]
  omega

-- An install that is not yet published leaves orphan bytes, which pending batches allow.
theorem installing_held {d : Bytes} (installing : Installing identity content m d) (some : content.pending ≠ [])
    (idle : m.state.phase = 0) (extent : m.dataEnd = content.dataEnd) : Held identity content d := by
  refine ⟨m, installing.1, fun _ => .inr (.inr ⟨some, ?_⟩), fun busy => absurd idle busy⟩
  have short := installing.2
  simp only [newEnd] at short
  omega

theorem published_held {d : Bytes} (some : content.pending ≠ [])
    (space : content.dataEnd + (64 + framesSize content.pending) ≤ databaseCapacity)
    (stored : Stored d identity (content.checkpoint some space) (nextManifests content m))
    (short : d.length ≤ newEnd content) : Held identity (content.checkpoint some space) d :=
  ⟨_, stored, fun _ => .inl short, fun busy => absurd rfl busy⟩

theorem checkpoint_grows (content : Content) (some : content.pending ≠ [])
    (space : content.dataEnd + (64 + framesSize content.pending) ≤ databaseCapacity) :
    content.installed < (content.checkpoint some space).installed ∧
      content.dataEnd < (content.checkpoint some space).dataEnd := by
  have count := List.length_pos_iff.mpr some
  have size := content.pending_segment_size some
  simp only [Content.checkpoint, Content.high, Content.dataEnd, extent_append, extent_cons, extent_nil]
  omega

-- After the install point the frames in the WAL are left over.
theorem leftover_checkpoint (logged : Logged (store.content .wal) identity content []) (some : content.pending ≠ [])
    (space : content.dataEnd + (64 + framesSize content.pending) ≤ databaseCapacity) :
    Leftover (store.content .wal) identity (content.checkpoint some space) (content.installed + 1)
      content.pending where
  bytes := by rw [logged.bytes, List.append_nil]
  counted := Nat.succ_pos _
  occupied := some
  ends := by
    simp only [Content.checkpoint, Content.high]
    omega
  none := rfl
  fits := logged.fits

/-- Up to the manifest the old content is held, from the manifest on the new one. -/
theorem checkpoint_guards (settled : Settled store db identity content m)
    (stored : Stored (store.content .database) identity content m) (some : content.pending ≠ [])
    (space : content.dataEnd + (64 + framesSize content.pending) ≤ databaseCapacity)
    (more : m.state.revision ≠ uint64Max)
    (old : ∀ d, Held identity content d → Unpublished m (store.content .database) d → P d (store.content .wal))
    (new : ∀ d w, Held identity (content.checkpoint some space) d → Superseded identity content m d →
      Replays True identity (content.checkpoint some space) w → P d w) :
    Guards P (fun d => Installing identity content m d ∧ Unpublished m (store.content .database) d)
      (store.content .database) (store.content .wal) content m some := by
  have wide := settled.wide
  have bounds := selected_bounds stored.current
  have modern : m.legacy = false := bounds.modern
  have extent : m.dataEnd = content.dataEnd := by
    rw [settled.installed.extent, settled.root]
    rfl
  have start := installing_start settled stored some
  obtain ⟨segment, unpublished⟩ := installing_segment settled stored some
  have length := with_segment_length settled some
  have fresh := installed_checkpoint settled.installed wide settled.serving.current settled.root some space
  have accepted := @new_manifest_accepted content m some (plain_revision settled.serving)
    (revision_bound settled.serving more) space _ (Nat.le_of_eq length.symm)
  have long := segment.1.length
  have leftover : Replays True identity (content.checkpoint some space) (store.content .wal) :=
    .leftover _ _ (leftover_checkpoint settled.logged some space)
  have short : ∀ count, (writeAt (withSegment content m (store.content .database) some)
      (slotOffset (m.state.revision + 1)) ((newManifest content m).take count)).length = newEnd content := by
    intro count
    rw [slot_write_length (by rw [List.length_take, new_manifest_length]; omega) long, length]
  have torn : ∀ count, slotTear (withSegment content m (store.content .database) some)
      (slotOffset (m.state.revision + 1)) (newManifest content m) count →
      P (writeAt (withSegment content m (store.content .database) some) (slotOffset (m.state.revision + 1))
        ((newManifest content m).take count)) (store.content .wal) := by
    intro count cut
    rcases publish_torn segment.1 fresh wide new_manifest_length accepted rfl cut with ⟨before, torn⟩ | ⟨after, superseded⟩
    · exact old _ (installing_held ⟨before, by rw [short]⟩ some settled.phase extent) (unpublished.trans torn)
    · exact new _ _ (published_held some space after (by rw [short])) superseded leftover
  have whole : Held identity (content.checkpoint some space)
      (withManifest content m (store.content .database) some) := by
    have published := publish_whole fresh wide long new_manifest_length accepted rfl
      (selected_older segment.1.current)
    refine published_held some space published ?_
    have size := short (newManifest content m).length
    rw [List.take_length] at size
    exact Nat.le_of_eq size
  have superseded : Superseded identity content m (withManifest content m (store.content .database) some) :=
    superseded_write segment.1 wide (Nat.le_of_eq new_manifest_length)
  exact
    { before := old _ (installing_held start some settled.phase extent) (unpublished_refl stored.current)
      upgrade := fun legacy => by
        rw [modern] at legacy
        cases legacy
      start := by
        rw [upgraded_modern modern]
        exact ⟨start, unpublished_refl stored.current⟩
      bears := installing_bears wide extent _
      weaken := fun d' installing => old d' (installing_held installing.1 some settled.phase extent) installing.2
      torn := torn
      whole := new _ _ whole superseded leftover
      reclaim := new _ _ whole superseded (.logged [] (reclaimed_checkpoint settled.logged wide some space) fun _ => .inl rfl) }

end Checkpoint

section Calls
variable {P : Bytes → Bytes → Prop} {batch : Batch} {records : List Record} {cutoff scratchSize : Nat}

theorem append_refused (settled : Settled store db identity content m) (safe : Safe P store) {error : Error}
    (refused : appendRefusal content records scratchSize = some error) :
    Performs P (batchesAppend db records scratchSize) db store (.error error, db) store := by
  rw [append_cases settled.serving, refused]
  exact calls_done safe

theorem append_live (live : Live store db identity content m position) (accepted : Accepted content batch)
    (none : appendRefusal content batch.records scratchSize = none)
    (torn : ∀ count, P (store.content .database)
      (store.content .wal ++ (frame (content.high + 1) batch.records).take count)) :
    ∃ after, Performs P (batchesAppend db batch.records scratchSize) db store
        (.ok (content.high + 1), appended db batch.records) after ∧
      Live after (appended db batch.records) identity (content.append batch accepted.more accepted.space) m
        position ∧ after.content .database = store.content .database := by
  have settled := live.settled
  have here : P (store.content .database) (store.content .wal) := by simpa using torn 0
  obtain ⟨after, performs, serving, database⟩ :=
    append_performs settled.serving accepted none (safe_synced settled.synced here) torn
  refine ⟨after, performs, ⟨serving.settled ?_ ?_, ?_, ?_⟩, database⟩
  · rw [database]
    exact settled.chosen
  · rw [database]
    exact slack_append settled.slack accepted.more accepted.space
  · rw [database]
    exact ⟨live.stored.current, live.stored.guarded, live.stored.installed.same rfl rfl rfl⟩
  · exact (delivers_append live.delivers).fields rfl rfl rfl rfl

theorem checkpoint_live (live : Live store db identity content m position) (some : content.pending ≠ [])
    (accepted : checkpointRefusal content m scratchSize = none)
    (space : content.dataEnd + (64 + framesSize content.pending) ≤ databaseCapacity)
    (old : ∀ d, Held identity content d → Unpublished m (store.content .database) d → P d (store.content .wal))
    (new : ∀ d w, Held identity (content.checkpoint some space) d → Superseded identity content m d →
      Replays True identity (content.checkpoint some space) w → P d w) :
    ∃ after, Performs P (batchesCheckpoint db scratchSize) db store (.ok (), checkpointed db content m) after ∧
      Live after (checkpointed db content m) identity (content.checkpoint some space) (nextManifests content m)
        position ∧ Superseded identity content m (after.content .database) := by
  have settled := live.settled
  obtain ⟨_, more, _⟩ := checkpoint_bounds accepted some
  have guards := checkpoint_guards settled live.stored some space more old new
  have segment := (installing_segment settled live.stored some).1
  have older := selected_older segment.1.current
  obtain ⟨after, performs, synced, database, wal⟩ := checkpoint_performs settled.serving some accepted guards
  obtain ⟨stored, settled'⟩ := checkpoint_settled settled some space more synced older database wal
  refine ⟨after, performs, ⟨settled', stored, delivers_checkpoint settled.tracks live.delivers⟩, ?_⟩
  rw [database, withManifest]
  exact superseded_write segment.1 settled.wide (Nat.le_of_eq new_manifest_length)

theorem expire_live (live : Live store db identity content m position)
    (accepted : expireRefusal content m cutoff scratchSize = none)
    (some : (content.kept cutoff).length ≠ content.segments.length)
    (weaken : ∀ d, Relocating identity content cutoff m (store.content .database) d → P d (store.content .wal)) :
    ∃ after db' revision, Performs P (batchesExpireBefore db cutoff scratchSize) db store (.ok (), db') after ∧
      Live after db' identity (content.expire cutoff) (retained (content.expire cutoff) revision 160 0) position ∧
      m.state.revision < revision ∧ revision ≤ m.state.revision + 4 ∧
      Finishing identity (content.expire cutoff) (after.content .database) := by
  obtain ⟨after, db', revision, performs, stored, settled, delivers, low, high, finished⟩ :=
    @expire_performs True P store db identity content m cutoff scratchSize position live.settled.serving accepted
      some live.delivers (fun _ => live.stored) fun d relocating => weaken d (relocating trivial)
  exact ⟨after, db', revision, performs, ⟨settled, stored, delivers⟩, low, high, finished trivial⟩

end Calls

end Timelite.Atomicity
