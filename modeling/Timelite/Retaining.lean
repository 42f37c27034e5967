import Timelite.Relocation

/-!
Retention manifests: the phases 1 to 3 in which an expiration can be
interrupted, and the recovery that brings the content back to offset 160 in
phase 0. `Held` is what every image of the database satisfies on the way.
-/
namespace Timelite.Retaining
open ByteFile Program Durable Codec CodecLaws Backend BackendLaws Layout FrameLaws HeaderWalk Links SegmentLaws
  SlotLaws Contents Images Crashes Databases Calls Checkpointing Reader Retention Relocation

section Manifest
variable (content : Content) (revision root phase : Nat)

/-- The manifest of a content whose chain starts at `root`. -/
def retained : Manifests where
  legacy := false
  generation := content.segments.length
  dataEnd := root + extent content.segments
  last := content.installed
  lastTime := content.installedTime
  tail := linkTo root content.segments content.segments.length
  hasTime := true
  state := ⟨revision, root, phase, true⟩

def retainedBytes : Bytes :=
  encodeRetention revision content.segments.length (root + extent content.segments) content.installed
    content.installedTime (linkTo root content.segments content.segments.length) root phase

structure Retainable : Prop where
  counted : revision ≠ 0
  revision : revision ≤ uint64Max
  phases : phase ≤ 3
  low : 160 ≤ root
  capacity : root + extent content.segments ≤ databaseCapacity
  place : if phase = 2 then extent content.segments ≤ root - 160 else root = 160

variable {content revision root phase}

theorem retained_bytes_length : (retainedBytes content revision root phase).length = 64 := by
  simp [retainedBytes]

theorem retained_accepted (able : Retainable content revision root phase) {size : Nat}
    (fits : root + extent content.segments ≤ size) :
    slotManifest (revision % 2) (retainedBytes content revision root phase) size =
      some (retained content revision root phase) := by
  have least := extent_ge content.segments
  have below := count_below_installed content
  have numbered := content.numbered
  have capacity := able.capacity
  have low := able.low
  have storable : Storable revision content.segments.length (root + extent content.segments)
      content.installed (linkTo root content.segments content.segments.length) root phase := by
    refine ⟨able.counted, able.revision, able.phases, low, Nat.le_add_right _ _, capacity, ?_, below,
      by omega, ?_, ?_⟩
    · simp only [segmentMin]
      omega
    · split
      · rename_i some
        exact ⟨link_ge _ _ some, link_lt (Nat.le_refl _) some⟩
      · rename_i none
        simp only [ne_eq, Decidable.not_not] at none
        rw [none, List.length_eq_zero_iff.mp none]
        simp
    · have place := able.place
      split at place
      · rename_i two
        rw [if_pos two]
        omega
      · rename_i other
        rw [if_neg other]
        exact place
  exact retention_slot storable content.timed fits (holds_self _)

theorem installed_retained {d identity : Bytes} (pair : Holds d 0 (encodePair databaseMagic identity))
    (held : Holds d root (chain root [] content.segments)) (able : Retainable content revision root phase) :
    Installed d identity content (retained content revision root phase) where
  pair := pair
  held := held
  above := able.low
  extent := rfl
  capacity := able.capacity
  generation := rfl
  last := rfl
  tail := fun _ => rfl
  agrees := fun _ _ _ off _ => by cases off
  time := stated_time_agrees fun _ _ _ off _ => by cases off
  gapless := fun off => by cases off

/-- The database holds the content, in whatever phase an interruption left it.
The revisions that a recovery still needs are free. -/
def Held (identity : Bytes) (content : Content) (d : Bytes) : Prop :=
  ∃ m, Stored d identity content m ∧ Slack d content m ∧
    (m.state.phase ≠ 0 → m.state.revision + 5 ≤ uint64Max + m.state.phase)

theorem held_phase {d identity : Bytes} {m : Manifests} (stored : Stored d identity content m)
    (busy : m.state.phase ≠ 0) (bound : m.state.revision + 5 ≤ uint64Max + m.state.phase) :
    Held identity content d :=
  ⟨m, stored, fun idle => absurd idle busy, fun _ => bound⟩

end Manifest

section Stages
variable {strict : Prop} {P : Bytes → Bytes → Prop} {store : Store} {identity : Bytes} {content : Content}
  {m : Manifests}

/-- The database holds the content under `m`. A run that may be interrupted is
`strict`: no cut and no change of length may then make the other slot current. -/
structure Kept (strict : Prop) (d identity : Bytes) (content : Content) (m : Manifests) : Prop where
  older : ∀ size other, SlotHas d (m.state.revision % 2) size other → other.state.revision ≤ m.state.revision
  long : 160 ≤ d.length
  bounded : Bounded m (m.state.revision % 2) d.length
  installed : Installed d identity content m
  stored : strict → Stored d identity content m

theorem kept_selected {d : Bytes} (current : selected d = some m) (installed : Installed d identity content m)
    (guarded : strict → Guarded d m) : Kept strict d identity content m :=
  ⟨selected_older current, selected_length current, selected_bounds current, installed,
    fun disturbed => ⟨current, guarded disturbed, installed⟩⟩

theorem stored_kept {d : Bytes} (stored : Stored d identity content m) : Kept strict d identity content m :=
  kept_selected stored.current stored.installed fun _ => stored.guarded

theorem Kept.agree {d d' : Bytes} (kept : Kept strict d identity content m) (wide : identity.length = 16)
    (front : Agree d d' 0 160) (body : Agree d d' m.state.root m.dataEnd) (long : 160 ≤ d'.length)
    (fits : m.dataEnd ≤ d'.length) : Kept strict d' identity content m where
  older := fun size other has =>
    kept.older size other (slot_has_agree front.symm (Nat.mod_lt _ (by decide)) has)
  long := long
  bounded := { kept.bounded with size := fits }
  installed := installed_agree kept.installed wide (front.mono (Nat.le_refl _) (by omega)) body
  stored := fun disturbed => (kept.stored disturbed).agree wide front body fits

theorem Kept.write {d : Bytes} (kept : Kept strict d identity content m) (wide : identity.length = 16)
    {offset : Nat} {bytes : Bytes} (above : 160 ≤ offset)
    (free : m.dataEnd ≤ offset ∨ offset + bytes.length ≤ m.state.root) :
    Kept strict (writeAt d offset bytes) identity content m := by
  have fits := kept.bounded.size
  have long := kept.long
  have grows := write_grows d offset bytes
  refine kept.agree wide (write_agree_below d offset bytes 160 long above) ?_ (by omega) (by omega)
  rcases free with beyond | before
  · exact (write_agree_below d offset bytes m.dataEnd fits beyond).mono (Nat.zero_le _) (Nat.le_refl _)
  · exact write_agree_above d offset bytes _ _ fits before

theorem Kept.resize {d : Bytes} (kept : Kept strict d identity content m) (wide : identity.length = 16) {size : Nat}
    (fits : m.dataEnd ≤ size) : Kept strict (ByteFile.resize d size) identity content m := by
  have low := kept.bounded.low
  have root := kept.bounded.root
  have whole := resize_agree d size m.dataEnd fits kept.bounded.size
  exact kept.agree wide (whole.mono (Nat.le_refl _) (by omega)) (whole.mono (Nat.zero_le _) (Nat.le_refl _))
    (by rw [resize_length]; omega) (by rw [resize_length]; exact fits)

/-- Copying the chain of the current manifest into free space. -/
theorem copy_stage (target cutoff : Nat) (filter : Bool) (synced : Synced store) (wide : identity.length = 16)
    (kept : Kept strict (store.content .database) identity content m)
    (weaken : ∀ d, (strict → Stored d identity content m) → P d (store.content .wal))
    (above : 160 ≤ target) (inside : target ≤ (store.content .database).length)
    (free : m.dataEnd ≤ target ∨ target + extent (copied filter cutoff content.segments) ≤ m.state.root) :
    ∃ after, Runs (Safe P) (copySegments m.state.root m.dataEnd target filter cutoff) store
        (target + extent (copied filter cutoff content.segments),
          linkTo target (copied filter cutoff content.segments)
            (copied filter cutoff content.segments).length) after ∧
      Synced after ∧ after.content .wal = store.content .wal ∧
      Kept strict (after.content .database) identity content m ∧
      Holds (after.content .database) target (chain target [] (copied filter cutoff content.segments)) ∧
      target + extent (copied filter cutoff content.segments) ≤ (after.content .database).length := by
  have stage : Safe (fun d w => Kept strict d identity content m ∧ w = store.content .wal) store :=
    safe_synced synced ⟨kept, rfl⟩
  have bears : Bears (Safe fun d w => Kept strict d identity content m ∧ w = store.content .wal) target
      (target + extent (copied filter cutoff content.segments)) := by
    refine bears_safe fun wal file offset bytes kept low high => ⟨kept.1.write wide (by omega) ?_, kept.2⟩
    omega
  obtain ⟨after, runs, synced', wal, database⟩ := copy_segments bears (syncs_safe _) stage
    kept.installed.chained kept.installed.extent (Nat.le_refl _) (Nat.le_refl _) free
  have still := runs.safe_after.content.1
  refine ⟨after, runs_mono runs fun d w ⟨held, same⟩ => same ▸ weaken d held.stored, synced' synced, wal, still, ?_, ?_⟩
  · rw [database]
    exact holds_write _ _ _
  · rw [database]
    have grows := write_grows (store.content .database) target
      (chain target [] (copied filter cutoff content.segments))
    by_cases none : chain target [] (copied filter cutoff content.segments) = []
    · have length := chain_length target [] (copied filter cutoff content.segments)
      rw [none, List.length_nil] at length
      omega
    · rw [write_length _ _ _ none, chain_length]
      omega

/-- Publishing over the current manifest: each cut leaves the old or the new one. -/
theorem publish_stage {content' : Content} {root phase : Nat} (synced : Synced store)
    (wide : identity.length = 16) (kept : Kept strict (store.content .database) identity content m)
    (fresh : Installed (store.content .database) identity content'
      (retained content' (m.state.revision + 1) root phase))
    (fits : root + extent content'.segments ≤ (store.content .database).length)
    (able : Retainable content' (m.state.revision + 1) root phase)
    (weaken : ∀ d, d.length = (store.content .database).length →
      (strict → Stored d identity content m ∧ Unpublished m (store.content .database) d ∨
        Stored d identity content' (retained content' (m.state.revision + 1) root phase) ∧
          Superseded identity content m d) →
      P d (store.content .wal)) :
    ∃ after, Runs (Safe P) (publishRetention m.state content'.segments.length
        (root + extent content'.segments) content'.installed content'.installedTime
        (linkTo root content'.segments content'.segments.length) root phase) store
        ⟨m.state.revision + 1, root, phase, true⟩ after ∧
      Synced after ∧ after.content .wal = store.content .wal ∧
      (after.content .database).length = (store.content .database).length ∧
      Stored (after.content .database) identity content'
        (retained content' (m.state.revision + 1) root phase) ∧
      (strict → Superseded identity content m (after.content .database)) := by
  have bound := able.revision
  have accepted := retained_accepted able fits
  have safe := safe_synced synced (weaken _ rfl fun disturbed => .inl ⟨kept.stored disturbed, unpublished_refl (kept.stored disturbed).current⟩)
  have torn : ∀ count, slotTear (store.content .database) (slotOffset (m.state.revision + 1))
      (retainedBytes content' (m.state.revision + 1) root phase) count →
      P (writeAt (store.content .database) (slotOffset (m.state.revision + 1))
        ((retainedBytes content' (m.state.revision + 1) root phase).take count)) (store.content .wal) := by
    intro count cut
    refine weaken _ ?_ fun disturbed =>
      publish_torn (kept.stored disturbed) fresh wide retained_bytes_length accepted rfl cut
    refine slot_write_length ?_ kept.long
    rw [List.length_take, retained_bytes_length]
    omega
  have write : Runs (Safe P) (writeExact .database (slotOffset (m.state.revision + 1))
      (retainedBytes content' (m.state.revision + 1) root phase)) store ()
      (store.update .database (.write (slotOffset (m.state.revision + 1))
        (retainedBytes content' (m.state.revision + 1) root phase))) := by
    have whole := torn _ (slot_tear_whole _ _ _)
    rw [List.take_length] at whole
    refine safe_write_database safe (fun w survives => ?_) fun w count survives cut => ?_
    · rw [synced_disk synced] at survives
      rw [survives_settled survives]
      exact whole
    · rw [synced_disk synced] at survives
      rw [survives_settled survives]
      exact torn count cut
  have sync := runs_sync .database write.safe_after (write.safe_after.sync .database)
  refine ⟨(store.update .database (.write (slotOffset (m.state.revision + 1))
    (retainedBytes content' (m.state.revision + 1) root phase))).sync .database, ?_,
    synced_sync_update synced _ _, ?_, ?_, ?_, ?_⟩
  · unfold publishRetention
    rw [if_neg (by omega)]
    exact runs_bind write (runs_bind sync (runs_pure sync.safe_after _))
  · rw [content_sync, content_update_database]
  · rw [content_sync, content_update_same]
    exact slot_write_length (by rw [retained_bytes_length]) kept.long
  · rw [content_sync, content_update_same]
    exact publish_whole fresh wide kept.long retained_bytes_length accepted rfl kept.older
  · rw [content_sync, content_update_same]
    exact fun disturbed => superseded_write (kept.stored disturbed) wide (Nat.le_of_eq retained_bytes_length)

end Stages

section Finishing
variable {strict : Prop} {P : Bytes → Bytes → Prop} {store : Store} {identity : Bytes} {content : Content}
  {m : Manifests}

/-- The length of a database whose retention is complete. An empty one keeps a
byte that tells it from a legacy empty file. -/
def cutLength (content : Content) : Nat := if content.dataEnd = 160 then 161 else content.dataEnd

theorem cut_length_ge (content : Content) : content.dataEnd ≤ cutLength content := by
  unfold cutLength
  split <;> omega

theorem slack_cut {d : Bytes} {revision : Nat} (cut : d.length = cutLength content) :
    Slack d content (retained content revision 160 0) := by
  intro _
  unfold cutLength at cut
  split at cut
  · rename_i empty
    have least := extent_ge content.segments
    simp only [Content.dataEnd] at empty
    have none : content.segments.length = 0 := by omega
    exact .inr (.inl ⟨rfl, none, cut⟩)
  · exact .inl (by rw [cut]; exact Nat.le_refl _)

/-- The images of a recovery: a busy phase of the content, or its end behind one. -/
inductive Finishing (identity : Bytes) (content : Content) (d : Bytes) : Prop where
  | busy (m : Manifests) (stored : Stored d identity content m) (busy : m.state.phase ≠ 0)
      (bound : m.state.revision + 5 ≤ uint64Max + m.state.phase) : Finishing identity content d
  | ended (m : Manifests) (stored : Stored d identity content (retained content (m.state.revision + 1) 160 0))
      (cut : d.length = cutLength content) (superseded : Superseded identity content m d) (busy : m.state.phase ≠ 0)
      (root : m.state.root = 160) (bound : m.state.revision + 5 ≤ uint64Max + m.state.phase) : Finishing identity content d

theorem Finishing.held {d : Bytes} (finishing : Finishing identity content d) : Held identity content d := by
  cases finishing with
  | busy m stored busy bound => exact held_phase stored busy bound
  | ended m stored cut superseded busy root bound => exact ⟨_, stored, slack_cut cut, fun still => absurd rfl still⟩

/-- The second half of a retention: the kept segments go back to offset 160. -/
theorem back_runs (synced : Synced store) (wide : identity.length = 16)
    (kept : Kept strict (store.content .database) identity content m) (busy : m.state.phase ≠ 0)
    (able : m.state.revision + 2 ≤ uint64Max) (bound : strict → m.state.revision + 5 ≤ uint64Max + m.state.phase)
    (weaken : ∀ d, (strict → Finishing identity content d) → P d (store.content .wal)) :
    ∃ after m', Runs (Safe P) (copyBack m.state m.generation m.dataEnd m.last content.installedTime
        (linkTo m.state.root content.segments content.segments.length)) store
        ⟨content.dataEnd, linkTo 160 content.segments content.segments.length, m'.state⟩ after ∧
      Synced after ∧ after.content .wal = store.content .wal ∧
      Kept strict (after.content .database) identity content m' ∧ m'.state.root = 160 ∧ m'.state.phase ≠ 0 ∧
      (strict → m'.state.revision + 5 ≤ uint64Max + m'.state.phase) ∧ m.state.revision ≤ m'.state.revision ∧
      m'.state.revision ≤ m.state.revision + 1 := by
  have place := kept.bounded.place
  have phases := kept.bounded.phase
  have root := kept.bounded.low
  have room := content.room
  have extentEq := kept.installed.extent
  unfold copyBack
  by_cases two : m.state.phase = 2
  · rw [if_pos two] at place ⊢
    have whole := copied_none 0 content.segments
    obtain ⟨first, copy, synced₁, wal₁, kept₁, held₁, length₁⟩ := copy_stage 160 0 false synced wide kept
      (fun d stored => weaken d fun disturbed => .busy m (stored disturbed) busy (bound disturbed)) (Nat.le_refl 160) kept.long
      (.inr (by rw [whole]; omega))
    rw [whole] at copy held₁ length₁
    have able' : Retainable content (m.state.revision + 1) 160 3 :=
      ⟨by omega, by omega, by omega, by omega, room, rfl⟩
    have cuts : ∀ d, d.length = (first.content .database).length →
        (strict → Stored d identity content m ∧ Unpublished m (first.content .database) d ∨
          Stored d identity content (retained content (m.state.revision + 1) 160 3) ∧ Superseded identity content m d) →
        P d (first.content .wal) := by
      intro d _ stored
      rw [wal₁]
      refine weaken d fun disturbed => ?_
      rcases stored disturbed with ⟨old, _⟩ | ⟨new, _⟩
      · exact .busy m old busy (bound disturbed)
      · have bound' := bound disturbed
        refine .busy _ new (by simp [retained]) ?_
        simp only [retained]
        omega
    obtain ⟨second, publish, synced₂, wal₂, _, stored₂, _⟩ := publish_stage synced₁ wide kept₁
      (installed_retained kept₁.installed.pair held₁ able') length₁ able' cuts
    refine ⟨second, retained content (m.state.revision + 1) 160 3, ?_, synced₂, wal₂.trans wal₁, (stored_kept stored₂), rfl,
      by simp [retained], ?_, Nat.le_succ _, Nat.le_refl _⟩
    · rw [kept.installed.generation, kept.installed.last]
      exact runs_bind copy (runs_bind publish (runs_pure publish.safe_after _))
    · intro disturbed
      have bound' := bound disturbed
      simp only [retained]
      omega
  · rw [if_neg two] at place ⊢
    refine ⟨store, m, ?_, synced, rfl, kept, place, busy, bound, Nat.le_refl _, Nat.le_succ _⟩
    rw [extentEq, place]
    exact runs_pure (safe_synced synced (weaken _ fun disturbed => .busy m (kept.stored disturbed) busy (bound disturbed))) _

/-- Recovery from any phase: however it is interrupted the content stays held,
and when it completes the retention is over. -/
theorem finish_runs (synced : Synced store) (wide : identity.length = 16)
    (kept : Kept strict (store.content .database) identity content m) (busy : m.state.phase ≠ 0)
    (able : m.state.revision + 2 ≤ uint64Max) (bound : strict → m.state.revision + 5 ≤ uint64Max + m.state.phase)
    (weaken : ∀ d, (strict → Finishing identity content d) → P d (store.content .wal)) :
    ∃ after revision, Runs (Safe P) (finishRetention m.state m.generation m.dataEnd m.last
        content.installedTime (linkTo m.state.root content.segments content.segments.length)) store
        ⟨content.dataEnd, linkTo 160 content.segments content.segments.length, ⟨revision, 160, 0, true⟩⟩ after ∧
      Synced after ∧ after.content .wal = store.content .wal ∧
      Stored (after.content .database) identity content (retained content revision 160 0) ∧
      (after.content .database).length = cutLength content ∧ m.state.revision < revision ∧
      revision ≤ m.state.revision + 2 ∧ (strict → Finishing identity content (after.content .database)) := by
  have phases := kept.bounded.phase
  have room := content.room
  obtain ⟨first, m', back, synced₁, wal₁, kept₁, root, busy', bound', low, high⟩ :=
    back_runs synced wide kept busy able bound weaken
  have phases' := kept₁.bounded.phase
  have extentEq := kept₁.installed.extent
  rw [root] at extentEq
  have longer := cut_length_ge content
  have fits : m'.dataEnd ≤ cutLength content := by
    rw [extentEq]
    exact longer
  have truncate : Runs (Safe P) (fileTruncate .database (cutLength content)) first ()
      (first.update .database (.truncate (cutLength content))) := by
    refine safe_truncate_database back.safe_after fun w survives => ?_
    rw [synced_disk synced₁] at survives
    rw [survives_settled survives, wal₁]
    exact weaken _ fun disturbed => .busy m' ((kept₁.resize wide fits).stored disturbed) busy' (bound' disturbed)
  have sync := runs_sync .database truncate.safe_after (truncate.safe_after.sync .database)
  generalize secondEq : (first.update .database (.truncate (cutLength content))).sync .database = second at sync
  have synced₂ : Synced second := by
    rw [← secondEq]
    exact synced_sync_update synced₁ _ _
  have wal₂ : second.content .wal = store.content .wal := by
    rw [← secondEq, content_sync, content_update_database, wal₁]
  have data : second.content .database = resize (first.content .database) (cutLength content) := by
    rw [← secondEq, content_sync, content_update_same]
    rfl
  have kept₂ : Kept strict (second.content .database) identity content m' := by
    rw [data]
    exact kept₁.resize wide fits
  have length₂ : (second.content .database).length = cutLength content := by rw [data, resize_length]
  have able' : Retainable content (m'.state.revision + 1) 160 0 :=
    ⟨by omega, by omega, by omega, by omega, room, rfl⟩
  have held := kept₂.installed.held
  rw [root] at held
  have cuts : ∀ d, d.length = (second.content .database).length →
      (strict → Stored d identity content m' ∧ Unpublished m' (second.content .database) d ∨
        Stored d identity content (retained content (m'.state.revision + 1) 160 0) ∧ Superseded identity content m' d) →
      P d (second.content .wal) := by
    intro d same stored
    rw [wal₂]
    refine weaken d fun disturbed => ?_
    rcases stored disturbed with ⟨old, _⟩ | ⟨new, superseded⟩
    · exact .busy m' old busy' (bound' disturbed)
    · exact .ended m' new (by rw [same, length₂]) superseded busy' root (bound' disturbed)
  obtain ⟨third, publish, synced₃, wal₃, length₃, stored₃, superseded₃⟩ := publish_stage synced₂ wide kept₂
    (installed_retained kept₂.installed.pair held able') (by rw [length₂]; exact longer) able' cuts
  refine ⟨third, m'.state.revision + 1, ?_, synced₃, wal₃.trans wal₂, stored₃, by rw [length₃, length₂],
    by omega, by omega, fun disturbed =>
      .ended m' stored₃ (by rw [length₃, length₂]) (superseded₃ disturbed) busy' root (bound' disturbed)⟩
  have generation := kept.installed.generation
  have last := kept.installed.last
  unfold finishRetention
  rw [Io.require, if_pos (by omega)]
  refine runs_bind (runs_pure back.safe_before ()) (runs_bind back (runs_bind truncate (runs_bind sync ?_)))
  rw [generation, last]
  exact runs_bind publish (runs_pure publish.safe_after _)

end Finishing

end Timelite.Retaining
