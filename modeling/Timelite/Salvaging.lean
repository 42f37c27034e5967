import Timelite.Interrupting
import Timelite.Reaching

/-!
Pairs that open accepts without a valid manifest: the WAL holds every batch, and
the first checkpoint has to give the database a manifest. It writes the slots
first in a database of exactly 32 bytes only, and a cut of it keeps the batches
where a manifest or a short file is left to fall back on.
-/
namespace Timelite.Salvaging
open ByteFile Program Durable Codec CodecLaws Backend BackendLaws Layout HeaderWalk SlotLaws WalLaws Contents Images Crashes
  Databases Calls Appending Checkpointing Retaining Cursor Aggregating Reader BatchApi Opening Creating Atomicity System
  Refinement Soundness Observing Undisturbed Answering Reaching Lifting

/-- No slot holds a manifest, and the file is short enough to be taken for an empty one. -/
def Slotless (d : Bytes) : Prop := d.length = 32 ∨ selected d = none ∧ d.length ≤ 160

instance (d : Bytes) : Decidable (Slotless d) := inferInstanceAs (Decidable (_ ∨ _ ∧ _))

/-- What a checkpoint can fall back on: the slots that it writes first in a database of
32 bytes, a valid slot, or a first slot that is valid as soon as the file is long enough. -/
def Anchored (d : Bytes) : Prop :=
  d.length = 32 ∨ selected d ≠ none ∨
    d.length < 160 ∧ selected (resize d 160) = some createdManifests ∧ Guarded (resize d 160) createdManifests

section Images
variable {d w identity : Bytes} {content : Content} {m : Manifests} {old : Bool}

theorem selected_short (short : d.length < 160) : selected d = none := by
  cases found : selected d with
  | none => rfl
  | some m =>
      have long := selected_length found
      omega

theorem Slotless.short (slotless : Slotless d) : d.length ≤ 160 := by
  rcases slotless with legacy | ⟨_, short⟩
  · omega
  · exact short

theorem slotless_chosen (slotless : Slotless d) : chosen d = some (noManifest (decide (d.length = 32))) := by
  rcases slotless with legacy | ⟨none, short⟩
  · simp [chosen, legacy]
  · by_cases legacy : d.length = 32
    · simp [chosen, legacy]
    · simp [chosen, legacy, none, dataStart, short]

theorem slotless_of_short (short : d.length < 160) : Slotless d := .inr ⟨selected_short short, by omega⟩

-- Whether the database is of feature 004 does not matter for what it stores.
theorem installed_flag (installed : Installed d identity content (noManifest old)) (other : Bool) :
    Installed d identity content (noManifest other) := { installed with }

/-- Without a manifest nothing is installed. -/
theorem installed_nothing (installed : Installed d identity content (noManifest old)) :
    content.segments = [] ∧ content.installed = 0 ∧ content.installedTime = 0 := by
  have none : content.segments = [] := List.length_eq_zero_iff.mp installed.generation.symm
  have time := installed.time
  rw [none] at time
  exact ⟨none, installed.last.symm, time.symm⟩

theorem installed_bare {d' : Bytes} (installed : Installed d identity content (noManifest old)) (wide : identity.length = 16)
    (front : Agree d d' 0 32) : Installed d' identity content (noManifest false) := by
  have first := installed.pair.agree front (Nat.zero_le _) (by simp [databaseMagic, wide])
  refine { installed with pair := first, held := ?_ }
  rw [(installed_nothing installed).1]
  exact holds_nil _ _

theorem slotless_slack (slotless : Slotless d) : Slack d content (noManifest old) := fun _ => .inl slotless.short

/-- The database side of a pair whose batches can be recovered. -/
inductive Roots (identity : Bytes) (content : Content) (d : Bytes) : Prop where
  | held (held : Held identity content d) : Roots identity content d
  | bare (slotless : Slotless d) (installed : Installed d identity content (noManifest false)) : Roots identity content d

theorem roots_append {batch : Batch} (roots : Roots identity content d) (more : content.high < uint64Max)
    (space : content.walEnd + batch.size ≤ walCapacity) : Roots identity (content.append batch more space) d := by
  cases roots with
  | held held => exact .held (held_append held more space)
  | bare slotless installed => exact .bare slotless (installed.same rfl rfl rfl)

-- Complete and without orphans, a stored content is held in phase 0.
theorem held_exact (stored : Stored d identity content m) (idle : m.state.phase = 0) (exact_ : d.length ≤ m.dataEnd) :
    Held identity content d := ⟨m, stored, fun _ => .inl exact_, fun busy => absurd idle busy⟩

/-- The image in which the segment of an anchored checkpoint lands. -/
structure Base (d identity : Bytes) (content : Content) (m : Manifests) (base : Bytes) : Prop where
  stored : Stored base identity content (noManifest false)
  length : base.length = 160
  start : Roots identity content (upgraded m d)
  lands : ∀ offset bytes, 160 ≤ offset → bytes ≠ [] → writeAt (upgraded m d) offset bytes = writeAt base offset bytes

theorem base_legacy (installed : Installed d identity content (noManifest false)) (wide : identity.length = 16)
    (short : d.length = 32) : Base d identity content (noManifest true) (createdDatabase identity) := by
  have header : d = encodePair databaseMagic identity :=
    whole_holds installed.pair (by rw [short]; simp [databaseMagic, wide])
  have upgrade : upgraded (noManifest true) d = createdDatabase identity := by
    have whole := write_at_end d upgradeBytes
    rw [short] at whole
    change writeAt d 32 upgradeBytes = _
    rw [whole, upgradeBytes, createdDatabase, header, List.append_assoc]
  obtain ⟨none, last, time⟩ := installed_nothing installed
  have created := created_stored wide
  have stored : Stored (createdDatabase identity) identity content (noManifest false) :=
    ⟨created.current, created.guarded, created.installed.same none last time⟩
  have length := created_length wide
  refine ⟨stored, length, ?_, fun _ _ _ _ => by rw [upgrade]⟩
  rw [upgrade]
  exact .held (held_exact stored rfl (Nat.le_of_eq length))

theorem base_short (installed : Installed d identity content (noManifest false)) (short : d.length < 160)
    (found : selected (resize d 160) = some createdManifests) (guarded : Guarded (resize d 160) createdManifests)
    (wide : identity.length = 16) : Base d identity content (noManifest false) (resize d 160) := by
  have size : (encodePair databaseMagic identity).length = 32 := by simp [databaseMagic, wide]
  refine ⟨⟨found, guarded, { installed with pair := ?_, held := ?_ }⟩, resize_length _ _,
    .bare (slotless_of_short short) installed, fun offset bytes above filled => ?_⟩
  · exact installed.pair.resize _ (by rw [size]; decide)
  · rw [(installed_nothing installed).1]
    exact holds_nil _ _
  · exact (write_resize d 160 offset bytes filled (Nat.le_of_lt short) above).symm

theorem anchored_base (slotless : Slotless d) (anchored : Anchored d)
    (installed : Installed d identity content (noManifest false)) (wide : identity.length = 16) :
    ∃ base, Base d identity content (noManifest (decide (d.length = 32))) base := by
  by_cases legacy : d.length = 32
  · rw [decide_eq_true legacy]
    exact ⟨_, base_legacy installed wide legacy⟩
  · rw [decide_eq_false legacy]
    rcases anchored with same | some | ⟨short, found, guarded⟩
    · exact absurd same legacy
    · exact absurd (slotless.resolve_left legacy).1 some
    · exact ⟨_, base_short installed short found guarded wide⟩

end Images

section Checkpoint
variable {P : Bytes → Bytes → Prop} {store : Store} {db : Batches} {identity base : Bytes} {content : Content} {old : Bool}

theorem base_segment (placed : Base (store.content .database) identity content (noManifest old) base)
    (some : content.pending ≠ []) :
    withSegment content (noManifest old) (store.content .database) some = withSegment content (noManifest false) base some := by
  have image := install_image_length some
  refine placed.lands content.dataEnd _ (Nat.le_add_right _ _) fun empty => ?_
  rw [empty, List.length_nil] at image
  omega

theorem base_bound {d : Bytes} {m : Manifests} (placed : Base d identity content m base) (other : Content) :
    base.length ≤ newEnd other := by
  have length := placed.length
  simp only [newEnd, Content.dataEnd]
  omega

-- The pair as it would be with the base in place of the database.
theorem base_settled (settled : Settled store db identity content (noManifest old))
    (placed : Base (store.content .database) identity content (noManifest old) base) :
    Settled ⟨some (Durable.settled base), store.wal, store.entropy⟩ { db with legacy := false } identity content
      (noManifest false) where
  synced := ⟨rfl, settled.synced.2⟩
  wide := settled.wide
  tracks := { settled.tracks with }
  ready := settled.ready
  revision := settled.revision
  retention := settled.retention
  legacy := rfl
  phase := rfl
  root := rfl
  chosen := selected_chosen placed.stored.current
  installed := placed.stored.installed
  logged := settled.logged
  slack := fun _ => .inl (Nat.le_of_eq placed.length)

/-- Up to the manifest the old content is there, with a manifest or in a short file. -/
theorem base_guards (settled : Settled store db identity content (noManifest old))
    (placed : Base (store.content .database) identity content (noManifest old) base) (slotless : Slotless (store.content .database))
    (some : content.pending ≠ []) (space : content.dataEnd + (64 + framesSize content.pending) ≤ databaseCapacity)
    (kept : ∀ d, Roots identity content d → P d (store.content .wal))
    (new : ∀ d w, Held identity (content.checkpoint some space) d →
      Replays True identity (content.checkpoint some space) w → P d w) :
    Guards P (fun d => d = upgraded (noManifest old) (store.content .database) ∨
        Installing identity content (noManifest false) d ∧ Unpublished (noManifest false) base d)
      (store.content .database) (store.content .wal) content (noManifest old) some := by
  have installed := installed_flag settled.installed false
  have guards := checkpoint_guards (base_settled settled placed) placed.stored some space (by decide)
    (fun d held _ => kept d (.held held)) fun d w held _ => new d w held
  have lands := base_segment placed some
  refine
    { before := kept _ (.bare slotless installed)
      upgrade := fun legacy count _ => kept _ ?_
      start := .inl rfl
      bears := fun file offset bytes begun above below => ?_
      weaken := fun d begun => ?_
      torn := by rw [lands]; exact guards.torn
      whole := by rw [withManifest, lands]; exact guards.whole
      reclaim := by rw [withManifest, lands]; exact guards.reclaim }
  · -- A cut of the slots leaves a short file, all of them the base.
    have size := ((chosen_current settled.chosen).legacy legacy).2
    have front := write_agree_below (store.content .database) 32 (upgradeBytes.take count) 32 (by omega) (Nat.le_refl _)
    have bare := installed_bare settled.installed settled.wide front
    by_cases short : (writeAt (store.content .database) 32 (upgradeBytes.take count)).length < 160
    · exact .bare (slotless_of_short short) bare
    · have bound := write_bound (store.content .database) 32 (upgradeBytes.take count)
      have total : upgradeBytes.length = 128 := by simp [upgradeBytes]
      rw [List.length_take] at bound
      have start := placed.start
      rw [upgraded, if_pos legacy] at start
      rwa [List.take_of_length_le (by omega)]
  · rcases begun with rfl | installing
    · by_cases empty : bytes = []
      · rw [empty, write_nil]
        exact .inl rfl
      · rw [placed.lands offset bytes (Nat.le_trans (Nat.le_add_right _ _) above) empty]
        have first : Installing identity content (noManifest false) base := ⟨placed.stored, base_bound placed content⟩
        exact .inr (guards.bears base offset bytes ⟨first, unpublished_refl placed.stored.current⟩ above below)
    · exact .inr (guards.bears file offset bytes installing above below)
  · rcases begun with rfl | installing
    · exact kept _ placed.start
    · exact guards.weaken d installing

end Checkpoint

section Calls
variable {clean : Prop} {φ : Content → Prop} {store : Store} {db : Batches} {identity : Bytes} {v : View} {act : Act}

/-- Some content of the family is there in both images. -/
def Rooted (clean : Prop) (φ : Content → Prop) (identity d w : Bytes) : Prop :=
  ∃ content, φ content ∧ Roots identity content d ∧ Replays clean identity content w

/-- An open handle on a pair whose batches can be recovered. -/
structure Up (store : Store) (db : Batches) (identity : Bytes) (v : View) : Prop where
  settled : Settled store db identity v.content v.m
  delivers : Delivers db v.content v.position
  stored : Stored (store.content .database) identity v.content v.m ∨ Slotless (store.content .database)
  honest : Honest v.content

theorem Up.steady {host : Host} (up : Up host.store host.db identity v) : Steady host identity v :=
  ⟨up.settled.serving, up.honest, up.delivers⟩

theorem bare_manifest (settled : Settled store db identity v.content v.m) (slotless : Slotless (store.content .database)) :
    v.m = noManifest (decide ((store.content .database).length = 32)) :=
  Option.some.inj (settled.chosen.symm.trans (slotless_chosen slotless))

theorem Up.roots (up : Up store db identity v) : Roots identity v.content (store.content .database) := by
  rcases up.stored with stored | slotless
  · exact .held (Live.held ⟨up.settled, stored, up.delivers⟩)
  · have installed := up.settled.installed
    rw [bare_manifest up.settled slotless] at installed
    exact .bare slotless (installed_flag installed false)

theorem Up.replays (up : Up store db identity v) : Replays clean identity v.content (store.content .wal) :=
  .logged [] up.settled.logged fun _ => .inl rfl

theorem up_safe (up : Up store db identity v) (holds : φ v.content) : Safe (Rooted clean φ identity) store :=
  safe_synced up.settled.synced ⟨v.content, holds, up.roots, up.replays⟩

theorem up_append (up : Up store db identity v) (holds : φ v.content) (records : List Record) (scratchSize : Nat)
    (closed : ∀ content', Effect (.append records scratchSize) v.content content' → φ content') :
    ∃ result v' db' after,
      Performs (Rooted False φ identity) (Act.perform db (.append records scratchSize)) db store (result, db') after ∧
      Answers (.append records scratchSize) v result v' ∧ Up after db' identity v' := by
  have settled := up.settled
  have safe := @up_safe False φ store db identity v up holds
  cases refusal : appendRefusal v.content records scratchSize with
  | some error =>
      exact ⟨_, v, db, store, performs_answering (append_refused settled safe refusal), .appendRefused _ _ v error refusal, up⟩
  | none =>
      obtain ⟨batch, rfl, accepted⟩ := accepted_of_none refusal
      have grown := closed _ (.append batch scratchSize v.content accepted)
      have torn : ∀ count, Rooted False φ identity (store.content .database)
          (store.content .wal ++ (frame (v.content.high + 1) batch.records).take count) := by
        intro count
        have image := append_image settled accepted count
        split at image
        · exact ⟨_, holds, up.roots, .logged _ image fun impossible => impossible.elim⟩
        · exact ⟨_, grown, roots_append up.roots accepted.more accepted.space, .logged _ image fun impossible => impossible.elim⟩
      obtain ⟨after, performs, serving, database⟩ := append_performs settled.serving accepted refusal safe torn
      have chosen := settled.chosen
      have slack := slack_append settled.slack accepted.more accepted.space
      have stored := up.stored
      rw [← database] at chosen slack stored
      have delivers : Delivers (appended db batch.records) (v.content.append batch accepted.more accepted.space) v.position :=
        (delivers_append up.delivers).fields rfl rfl rfl rfl
      refine ⟨_, { v with content := v.content.append batch accepted.more accepted.space }, _, after,
        performs_answering performs, .append batch scratchSize v accepted refusal, serving.settled chosen slack,
        delivers, ?_, up.honest⟩
      exact stored.imp_left fun stored => ⟨stored.current, stored.guarded, stored.installed.same rfl rfl rfl⟩

/-- A checkpoint with something to fall back on is atomic, whatever was in the slots. -/
theorem up_install (up : Up store db identity v) (holds : φ v.content) {scratchSize : Nat} (some : v.content.pending ≠ [])
    (accepted : checkpointRefusal v.content v.m scratchSize = none)
    (space : v.content.dataEnd + (64 + framesSize v.content.pending) ≤ databaseCapacity)
    (anchored : Anchored (store.content .database)) (installed : φ (v.content.checkpoint some space)) :
    ∃ after, Performs (Rooted clean φ identity) (batchesCheckpoint db scratchSize) db store
        (.ok (), checkpointed db v.content v.m) after ∧
      Up after (checkpointed db v.content v.m) identity
        ⟨v.content.checkpoint some space, nextManifests v.content v.m, v.position⟩ := by
  obtain ⟨content, m, position⟩ := v
  have settled := up.settled
  have delivers := up.delivers
  have honest := honest_effect up.honest (.checkpoint scratchSize content some space)
  have old : ∀ d, Roots identity content d → Rooted clean φ identity d (store.content .wal) :=
    fun d roots => ⟨content, holds, roots, up.replays⟩
  have new : ∀ d w, Held identity (content.checkpoint some space) d → Replays True identity (content.checkpoint some space) w →
      Rooted clean φ identity d w :=
    fun d w held replays => ⟨_, installed, .held held, replays.weaken fun _ => trivial⟩
  rcases up.stored with stored | slotless
  · obtain ⟨after, performs, live, _⟩ := checkpoint_live ⟨settled, stored, delivers⟩ some accepted space
      (fun d held _ => old d (.held held)) fun d w held _ => new d w held
    exact ⟨after, performs, live.settled, live.delivers, .inl live.stored, honest⟩
  · have manifest := bare_manifest settled slotless
    simp only at manifest settled some accepted
    subst manifest
    obtain ⟨base, placed⟩ := anchored_base slotless anchored (installed_flag settled.installed false) settled.wide
    have guards := base_guards settled placed slotless some space old new
    obtain ⟨after, performs, synced, database, wal⟩ := checkpoint_performs settled.serving some accepted guards
    have older := selected_older (installing_segment (base_settled settled placed) placed.stored some).1.1.current
    obtain ⟨stored, settled'⟩ := checkpoint_settled settled some space (checkpoint_bounds accepted some).2.1 synced (by
      rw [base_segment placed some]
      exact older) database wal
    have delivers' : Delivers (checkpointed db content (noManifest (decide ((store.content .database).length = 32))))
        (content.checkpoint some space) position := delivers_checkpoint settled.tracks delivers
    exact ⟨after, performs, settled', delivers', .inl stored, honest⟩

theorem up_checkpoint (up : Up store db identity v) (holds : φ v.content) (scratchSize : Nat)
    (anchored : v.content.pending ≠ [] → batchScratch ≤ scratchSize → Anchored (store.content .database))
    (closed : ∀ content', Effect (.checkpoint scratchSize) v.content content' → φ content') :
    ∃ result v' db' after,
      Performs (Rooted clean φ identity) (Act.perform db (.checkpoint scratchSize)) db store (result, db') after ∧
      Answers (.checkpoint scratchSize) v result v' ∧ Up after db' identity v' := by
  have serving := up.settled.serving
  have safe := @up_safe clean φ store db identity v up holds
  cases refusal : checkpointRefusal v.content v.m scratchSize with
  | some error =>
      have refused : Performs (Rooted clean φ identity) (batchesCheckpoint db scratchSize) db store (.error error, db) store := by
        rw [checkpoint_refused serving refusal]
        exact calls_done safe
      exact ⟨_, v, db, store, performs_answering refused, .checkpointRefused _ v error refusal, up⟩
  | none =>
      by_cases empty : v.content.pending = []
      · have nothing : Performs (Rooted clean φ identity) (batchesCheckpoint db scratchSize) db store (.ok (), db) store := by
          rw [checkpoint_nothing serving refusal empty]
          exact calls_done safe
        exact ⟨_, v, db, store, performs_answering nothing, .checkpointNothing _ v refusal empty, up⟩
      · obtain ⟨large, _, space⟩ := checkpoint_bounds refusal empty
        obtain ⟨after, performs, up'⟩ := up_install up holds empty refusal space (anchored empty large)
          (closed _ (.checkpoint scratchSize v.content empty space))
        exact ⟨_, _, _, after, performs_answering performs, .checkpoint scratchSize v refusal empty space, up'⟩

theorem up_reads (up : Up store db identity v) (holds : φ v.content) (reads : ReadOnly act) :
    ∃ result v' db' after, Performs (Rooted clean φ identity) (act.perform db) db store (result, db') after ∧
      Answers act v result v' ∧ Up after db' identity v' := by
  have settled := up.settled
  obtain ⟨result, ⟨content, m, position⟩, db', consults⟩ :=
    reads_consults settled.serving (@up_safe clean φ store db identity v up holds) up.delivers up.honest reads
  obtain rfl : content = v.content := consults.content
  obtain rfl : m = v.m := consults.manifest
  exact ⟨result, _, db', store, consults.performs, consults.answers,
    (serving_moved settled.serving consults.moved).settled settled.chosen settled.slack, consults.delivers, up.stored, up.honest⟩

end Calls

section Opening
variable {P : Bytes → Bytes → Prop} {store : Store} {db : Batches} {identity : Bytes} {content : Content} {mode : OpenMode}
  {scratchSize : Nat}

theorem roots_found {d : Bytes} (roots : Roots identity content d) :
    ∃ m, Installed d identity content m ∧ chosen d = some m := by
  cases roots with
  | held held =>
      obtain ⟨m, stored, _, _⟩ := held
      exact ⟨m, stored.installed, selected_chosen stored.current⟩
  | bare slotless installed => exact ⟨_, installed_flag installed _, slotless_chosen slotless⟩

/-- Open recovers the content, with a manifest or without one. -/
theorem roots_recovered (safe : Safe P store) (wide : identity.length = 16) (honest : Honest content)
    (roots : Roots identity content (store.content .database)) (replays : Replays True identity content (store.content .wal))
    (weaken : ∀ d w, Roots identity content d → Replays True identity content w → P d w)
    (closed : db.database = false ∧ db.wal = false) (large : batchScratch ≤ scratchSize) (old : mode ≠ .createNew) :
    ∃ handle after m, Does device (Safe P) (Refused db) (batchesOpen db mode scratchSize) store (.ok (), handle) after ∧
      Up after handle identity ⟨content, m, 1⟩ := by
  cases roots with
  | held held =>
      obtain ⟨handle, after, m, triple, live, _⟩ := open_recovers safe wide ⟨held, replays⟩
        (fun d w image => weaken d w (.held (recovering_held held image))) closed large old
      exact ⟨handle, after, m, triple, live.settled, live.delivers, .inl live.stored, honest⟩
  | bare slotless installed =>
      have found := slotless_chosen slotless
      have installed' := installed_flag installed (decide ((store.content .database).length = 32))
      obtain ⟨_, cut⟩ := replays_cut wide replays
      obtain ⟨after, handle, m', runs, settled, delivers, _, change⟩ := @recover_runs False P store identity content _ safe wide
        installed' found (slotless_slack slotless) (fun busy => absurd rfl busy) (fun busy => absurd rfl busy)
        (fun busy => absurd rfl busy) replays fun d w database wal => by
          rcases database with rfl | ⟨busy, _⟩
          · refine weaken _ w (.bare slotless installed) ?_
            rcases wal with rfl | rfl
            · exact replays
            · exact .logged [] cut fun _ => .inl rfl
          · exact absurd rfl busy
      refine ⟨handle, after, m', open_does safe closed large old installed.pair wide (does_opened runs), settled, delivers, ?_,
        honest⟩
      rcases change with ⟨_, _, same⟩ | ⟨busy, _⟩
      · rw [← same] at slotless
        exact .inr slotless
      · exact absurd rfl busy

theorem roots_stuck {tail : Bytes} (safe : Safe P store) (wide : identity.length = 16)
    (roots : Roots identity content (store.content .database)) (logged : Logged (store.content .wal) identity content tail)
    (stuck : ¬ Readable tail) (closed : db.database = false ∧ db.wal = false) (large : batchScratch ≤ scratchSize)
    (old : mode ≠ .createNew) :
    Does device (Safe P) (Refused db) (batchesOpen db mode scratchSize) store (.error .invalidDatabase, db) store := by
  obtain ⟨m, installed, found⟩ := roots_found roots
  exact open_does safe closed large old installed.pair wide (does_unreadable safe (validate_stuck wide installed found logged stuck))

end Opening

section Hosts
variable {clean : Prop} {φ : Content → Prop} {identity : Bytes} {host last : Host} {act : Act}

/-- The checkpoint passes its checks and has batches to install. -/
def Installs (host : Host) (act : Act) : Prop :=
  batchReady host.db = .ok () ∧ host.db.walEnd ≠ 32 ∧
    ∃ scratchSize, act = .checkpoint scratchSize ∧ batchScratch ≤ scratchSize

/-- Nothing is expired. -/
def Unexpired (_ : Host) (act : Act) : Prop := ∀ cutoff scratchSize, act ≠ .expireBefore cutoff scratchSize

/-- Nothing is expired, and a checkpoint that installs has something to fall back on. -/
def Supported (host : Host) (act : Act) : Prop :=
  Unexpired host act ∧ (Installs host act → Anchored (host.store.content .database))

/-- What a call of the host can make of a content stays in the family. -/
def Stays (φ : Content → Prop) (act : Act) : Prop :=
  ∀ content content', φ content → Effect act content content' → φ content'

/-- An open handle on a content of the family. -/
def Serves (φ : Content → Prop) (identity : Bytes) (host : Host) : Prop :=
  ∃ v : View, φ v.content ∧ Up host.store host.db identity v

/-- What a call must satisfy to keep the family; a clean WAL takes no append. -/
structure Within (clean : Prop) (φ : Content → Prop) (host : Host) (act : Act) : Prop where
  supported : Supported host act
  stays : Stays φ act
  tidy : clean → ∀ records scratchSize, act ≠ .append records scratchSize

theorem supported_plain (unexpired : Unexpired host act) (other : ∀ scratchSize, act ≠ .checkpoint scratchSize) :
    Supported host act :=
  ⟨unexpired, fun ⟨_, _, scratchSize, same, _⟩ => absurd same (other scratchSize)⟩

theorem up_performs {v : View} (up : Up host.store host.db identity v) (holds : φ v.content) (within : Within clean φ host act)
    (other : act ≠ .close) :
    ∃ result v' db' after, Performs (Rooted clean φ identity) (act.perform host.db) host.db host.store (result, db') after ∧
      Answers act v result v' ∧ Up after db' identity v' := by
  have closed := fun content' => within.stays v.content content' holds
  cases act with
  | close => exact absurd rfl other
  | expireBefore cutoff scratchSize => exact absurd rfl (within.supported.1 cutoff scratchSize)
  | openPair mode scratchSize =>
      exact ⟨_, v, host.db, host.store, performs_open (up_safe up holds) up.settled.tracks.database mode scratchSize,
        .busy _ _ v, up⟩
  | append records scratchSize =>
      obtain ⟨result, v', db', after, performs, rest⟩ := up_append up holds records scratchSize closed
      refine ⟨result, v', db', after, performs_mono performs fun d w rooted => ?_, rest⟩
      obtain ⟨content, holds, roots, replays⟩ := rooted
      exact ⟨content, holds, roots, replays.weaken fun needed => within.tidy needed records scratchSize rfl⟩
  | checkpoint scratchSize =>
      refine up_checkpoint up holds scratchSize
        (fun some large => within.supported.2 ⟨up.settled.serving.batch_ready, ?_, _, rfl, large⟩) closed
      rw [up.settled.tracks.walEnd]
      exact (wal_end_fresh _).not.mpr some
  | next | nextRange | seek | aggregateRange | rewind | getStatus => exact up_reads up holds trivial

theorem rooted_opens {store : Store} {db : Batches} {mode : OpenMode} {scratchSize : Nat} (wide : identity.length = 16)
    (honest : ∀ content, φ content → Honest content) (safe : Safe (Rooted clean φ identity) store)
    (closed : db.database = false ∧ db.wal = false) (large : batchScratch ≤ scratchSize) (old : mode ≠ .createNew) :
    ∃ result after,
      Does device (Safe (Rooted clean φ identity)) (Refused db) (batchesOpen db mode scratchSize) store result after ∧
      ((∃ error, result = (.error error, db)) ∨ result.1 = .ok () ∧ Serves φ identity ⟨after, result.2⟩) := by
  obtain ⟨content, holds, roots, replays⟩ := safe.content
  rcases replays_cases (replays.weaken fun impossible => impossible.elim) with readable | ⟨tail, logged, stuck⟩
  · obtain ⟨handle, after, m, triple, up⟩ := roots_recovered safe wide (honest _ holds) roots readable
      (fun d w roots replays => show Rooted clean φ identity d w from
        ⟨content, holds, roots, replays.weaken fun _ => trivial⟩) closed large old
    exact ⟨_, after, triple, .inr ⟨rfl, ⟨content, m, 1⟩, holds, up⟩⟩
  · exact ⟨_, store, roots_stuck safe wide roots logged stuck closed large old, .inl ⟨_, rfl⟩⟩

theorem rooted_upholds (wide : identity.length = 16) (honest : ∀ content, φ content → Honest content) :
    Upholds (Rooted clean φ identity) (Serves φ identity) (Within clean φ) where
  safe := fun ⟨v, holds, up⟩ => up_safe up holds
  performs := by
    rintro host act ⟨v, holds, up⟩ within other
    obtain ⟨result, v', db', after, performs, answers, up'⟩ := up_performs up holds within other
    refine ⟨result, db', after, performs, v', ?_, up'⟩
    rcases answers_effect answers with same | effect
    · rw [same]
      exact holds
    · exact within.stays _ _ holds effect
  opens := rooted_opens wide honest

end Hosts

section Runs
variable {clean : Prop} {φ : Content → Prop} {identity : Bytes} {host first last : Host} {allowed : Host → Act → Prop}
  {events : List Event} {items : List Item}

/-- A run whose calls are all allowed in the state they start from. -/
inductive Permitted (allowed : Host → Act → Prop) : Host → List Event → Host → Prop where
  | start (host : Host) : Permitted allowed host [] host
  | step {first middle last : Host} {events : List Event} {event : Event} (before : Permitted allowed first events middle)
      (may : allowed middle event.act) (after : Step middle event last) : Permitted allowed first (events ++ [event]) last

/-- No committed batch is lost: not by what follows, and not by a crash inside a checkpoint,
after which every open succeeds until the next append. -/
structure Salvages (allowed : Host → Act → Prop) (host : Host) : Prop where
  exposes : ∃ items, Exposes host items ∧ (items.map Prod.fst).Pairwise (· < ·)
  appends : ∀ items records scratchSize number last, Exposes host items →
    Step host (.returned (.append records scratchSize) (.ok (.sequence number))) last →
    Exposes last (items ++ [(number, records)])
  keeps : ∀ items later last, Exposes host items → Permitted allowed host later last → batchReady last.db = .ok () →
    ∃ more, Exposes last (items ++ more)
  recovers : ∀ items scratchSize last later again, Exposes host items → allowed host (.checkpoint scratchSize) →
    Step host (.crashed (.checkpoint scratchSize)) last → Permitted allowed last later again →
    (∀ event ∈ later, ∀ records scratchSize, event.act ≠ .append records scratchSize) → again.db = batchesInit →
    Reopens again fun opened => Exposes opened items

/-- The contents that list at least these batches. -/
def Listing (items : List Item) (content : Content) : Prop := Honest content ∧ items <+: listed content

/-- The contents that list just these batches. -/
def Lists (items : List Item) (content : Content) : Prop := Honest content ∧ listed content = items

theorem listing_stays {act : Act} (unexpired : Unexpired host act) : Stays (Listing items) act := by
  rintro content content' ⟨honest, listing⟩ effect
  refine ⟨honest_effect honest effect, ?_⟩
  cases effect with
  | append batch scratchSize content accepted =>
      rw [listed_append]
      exact listing.trans (List.prefix_append _ _)
  | checkpoint scratchSize content some space =>
      rw [listed_checkpoint]
      exact listing
  | expire cutoff scratchSize content => exact absurd rfl (unexpired cutoff scratchSize)

theorem lists_stays {act : Act} (unexpired : Unexpired host act)
    (tidy : ∀ records scratchSize, act ≠ .append records scratchSize) :
    Stays (Lists items) act := by
  rintro content content' ⟨honest, lists⟩ effect
  refine ⟨honest_effect honest effect, ?_⟩
  cases effect with
  | append batch scratchSize content accepted => exact absurd rfl (tidy batch.records scratchSize)
  | checkpoint scratchSize content some space =>
      rw [listed_checkpoint]
      exact lists
  | expire cutoff scratchSize content => exact absurd rfl (unexpired cutoff scratchSize)

/-- Every run whose checkpoints have something to fall back on keeps the pair recoverable. -/
theorem permitted_upheld (wide : identity.length = 16) (upheld : Upheld (Rooted clean φ identity) (Serves φ identity) first)
    (honest : ∀ content, φ content → Honest content)
    (stays : ∀ event ∈ events, ∀ host, Unexpired host event.act → Stays φ event.act)
    (tidy : clean → ∀ event ∈ events, ∀ records scratchSize, event.act ≠ .append records scratchSize)
    (permitted : Permitted Supported first events last) : Upheld (Rooted clean φ identity) (Serves φ identity) last := by
  induction permitted with
  | start => exact upheld
  | @step middle _ events event before may after ih =>
      have early := ih (fun event member => stays event (List.mem_append_left _ member))
        fun needed event member => tidy needed event (List.mem_append_left _ member)
      have within : Within clean φ middle event.act :=
        ⟨may, stays event (by simp) middle may.1, fun needed => tidy needed event (by simp)⟩
      exact upheld_step (rooted_upholds wide honest) early within after

/-- An accepted pair without a manifest: its WAL holds every batch. -/
theorem slotless_opens {store : Store} {db : Batches} {mode : OpenMode} {scratchSize : Nat} {opened : Host}
    (present : Present store) (slotless : Slotless (store.content .database))
    (ran : Host.call ⟨store, db⟩ (.openPair mode scratchSize) = (.ok .none, opened)) :
    ∃ identity v, Up opened.store opened.db identity v := by
  have intact : IntactPair store := by
    refine ⟨present, fun m found => ?_⟩
    cases (slotless_chosen slotless).symm.trans found
    exact ⟨(by decide : 0 < 9223372036854775808), fun place member => by cases member⟩
  obtain ⟨identity, content, before, after, admitted⟩ := open_admits intact ran
  have manifest := Option.some.inj (admitted.found.symm.trans (slotless_chosen slotless))
  rcases admitted.change with ⟨_, same, database⟩ | ⟨busy, _⟩
  · have slack := admitted.slack fun _ => by
      rw [manifest]
      exact slotless_slack slotless
    have steady := admitted.steady
    refine ⟨identity, _, steady.serving.settled admitted.current slack, steady.delivers, .inr ?_, steady.honest⟩
    rw [database]
    exact slotless
  · rw [manifest] at busy
    exact absurd rfl busy

theorem up_exposes {v : View} (up : Up host.store host.db identity v) : Exposes host (listed v.content) :=
  steady_exposes up.steady

theorem up_appends {v : View} (up : Up host.store host.db identity v) {records : List Record} {scratchSize number : Nat}
    (step : Step host (.returned (.append records scratchSize) (.ok (.sequence number))) last) :
    Exposes last (listed v.content ++ [(number, records)]) := by
  obtain ⟨value, v', db', after, performs, answers, up'⟩ := @up_append (fun _ => True) host.store host.db identity v up trivial
    records scratchSize fun _ _ => trivial
  cases step with
  | returned execution =>
      rcases (performs.2 _ _ execution).2 _ rfl with ⟨same, ended⟩ | ⟨code, same, _⟩ | ⟨code, failed, same, _⟩
      · cases same
        rw [ended]
        cases answers with
        | append batch scratchSize v accepted none =>
            have exposes := @up_exposes identity ⟨after, db'⟩ _ up'
            rwa [listed_append] at exposes
      · cases same
      · cases same

theorem up_recovers {v : View} {scratchSize : Nat} {again : Host} (up : Up host.store host.db identity v)
    (supported : Supported host (.checkpoint scratchSize)) (step : Step host (.crashed (.checkpoint scratchSize)) last)
    (permitted : Permitted Supported last events again)
    (tidy : ∀ event ∈ events, ∀ records scratchSize, event.act ≠ .append records scratchSize)
    (fresh : again.db = batchesInit) :
    Reopens again fun opened => Exposes opened (listed v.content) := by
  have wide := up.settled.wide
  have honest : ∀ content, Lists (listed v.content) content → Honest content := fun _ lists => lists.1
  have rule := @rooted_upholds True _ identity wide honest
  have within : Within True (Lists (listed v.content)) host (.checkpoint scratchSize) :=
    ⟨supported, lists_stays supported.1 fun _ _ same => (by cases same), fun _ _ _ same => by cases same⟩
  have cut := @upheld_step host last _ _ _ (.crashed (.checkpoint scratchSize)) rule (.up ⟨v, ⟨up.honest, rfl⟩, up⟩) within
    step
  have upheld := permitted_upheld wide cut honest (fun event member host unexpired => lists_stays unexpired (tidy event member))
    (fun _ => tidy) permitted
  have safe := upheld.safe rule
  obtain ⟨content, lists, roots, replays⟩ := safe.content
  intro mode size old large
  obtain ⟨handle, after, m, triple, up'⟩ := @roots_recovered (fun _ _ => True) again.store again.db identity content mode size
    (safe.mono fun _ _ _ => trivial) wide lists.1 roots replays (fun _ _ _ _ => trivial)
    (by rw [fresh]; exact ⟨rfl, rfl⟩) large old
  have ran : again.call (.openPair mode size) = (.ok .none, ⟨after, handle⟩) := by
    have inner : Prog.run device (Act.perform again.db (.openPair mode size)) again.store =
        ((.ok .none, handle), after) := run_answering triple.run_eq
    rw [Host.call, inner]
  rw [ran, ← lists.2]
  exact ⟨rfl, @up_exposes identity ⟨after, handle⟩ _ up'⟩

/-- What open accepts without a manifest is never lost, as long as each checkpoint that
installs starts on 32 bytes, on a valid slot, or on a whole first slot. -/
theorem slotless_salvaged {store : Store} {db : Batches} {mode : OpenMode} {scratchSize : Nat} {opened host : Host}
    {events : List Event} (present : Present store) (slotless : Slotless (store.content .database))
    (ran : Host.call ⟨store, db⟩ (.openPair mode scratchSize) = (.ok .none, opened))
    (permitted : Permitted Supported opened events host) (ready : batchReady host.db = .ok ()) : Salvages Supported host := by
  obtain ⟨identity, v₀, up₀⟩ := slotless_opens present slotless ran
  have start : Upheld (Rooted False Honest identity) (Serves Honest identity) opened := .up ⟨v₀, up₀.honest, up₀⟩
  have upheld := permitted_upheld up₀.settled.wide start (fun _ honest => honest)
    (fun event _ _ _ content content' honest effect => honest_effect honest effect) (fun never => never.elim) permitted
  obtain ⟨v, _, up⟩ := upheld_ready upheld ready
  have unique : ∀ {items}, Exposes host items → items = listed v.content := fun exposes => exposes_unique exposes (up_exposes up)
  refine ⟨⟨_, up_exposes up, ?_⟩, fun items records size number last exposes step => ?_,
    fun items later last exposes permitted ready => ?_,
    fun items size last later again exposes supported step permitted tidy fresh => ?_⟩
  · rw [listed, List.map_map, List.pairwise_map]
    exact exposed_increasing v.content
  · rw [unique exposes]
    exact up_appends up step
  · rw [unique exposes]
    have start : Upheld (Rooted False (Listing (listed v.content)) identity) (Serves (Listing (listed v.content)) identity) host :=
      .up ⟨v, ⟨up.honest, List.prefix_rfl⟩, up⟩
    have upheld := permitted_upheld up.settled.wide start (fun _ listing => listing.1)
      (fun event _ host unexpired => @listing_stays host _ event.act unexpired) (fun never => never.elim) permitted
    obtain ⟨v', listing, up'⟩ := upheld_ready upheld ready
    obtain ⟨more, same⟩ := listing.2
    exact ⟨more, same ▸ up_exposes up'⟩
  · rw [unique exposes]
    exact up_recovers up supported step permitted tidy fresh

end Runs

section Torn

/-- A database cut to so many bytes of a created one, and an empty WAL. -/
def cutStore (size : Nat) : Store where
  database := some (settled ((createdDatabase (List.replicate 16 7)).take size))
  wal := some (settled (encodePair walMagic (List.replicate 16 7)))
  entropy := []

def openedCut (size : Nat) : Host := (Host.call ⟨cutStore size, batchesInit⟩ (.openPair .openExisting batchScratch)).2

def filledCut (size : Nat) : Host := ((openedCut size).call (.append [⟨1, 2, 3⟩] batchScratch)).2

theorem cut_opens : Host.call ⟨cutStore 112, batchesInit⟩ (.openPair .openExisting batchScratch) = (.ok .none, openedCut 112) := by
  have ran : (Host.call ⟨cutStore 112, batchesInit⟩ (.openPair .openExisting batchScratch)).1 = .ok .none := by
    decide +kernel
  rw [openedCut, ← ran]

-- The rest of the second slot is zero.
theorem cut_anchored : Anchored ((filledCut 112).store.content .database) := by
  have database : (filledCut 112).store.content .database = (createdDatabase (List.replicate 16 7)).take 112 := by
    decide +kernel
  have whole : resize ((createdDatabase (List.replicate 16 7)).take 112) 160 = createdDatabase (List.replicate 16 7) := by
    decide +kernel
  have stored := @created_stored (List.replicate 16 7) rfl
  rw [Anchored, database, whole]
  exact .inr (.inr ⟨by decide +kernel, stored.current, stored.guarded⟩)

/-- The first checkpoint is cut before its manifest, and the pair is opened again. -/
theorem slotless_salvaged_cut : Salvages Supported
    (((filledCut 112).reboot (.checkpoint batchScratch) 3).call (.openPair .openExisting batchScratch)).2 := by
  have filled : Permitted Supported (openedCut 112) _ (filledCut 112) :=
    .step (.start _) (supported_plain (fun _ _ same => by cases same) fun _ same => by cases same)
      (call_step _ (.append [⟨1, 2, 3⟩] batchScratch))
  have cut : Permitted Supported (openedCut 112) _ ((filledCut 112).reboot (.checkpoint batchScratch) 3) :=
    .step filled ⟨fun _ _ same => (by cases same), fun _ => cut_anchored⟩ (reboot_step _ _ 3)
  exact @slotless_salvaged (cutStore 112) batchesInit .openExisting batchScratch _ _ _ ⟨rfl, rfl⟩ (by decide +kernel) cut_opens
    (.step cut (supported_plain (fun _ _ same => by cases same) fun _ same => by cases same)
      (call_step _ (.openPair .openExisting batchScratch))) (by decide +kernel)

/-- With one byte of the first slot, a checkpoint that is cut before its manifest leaves
a pair that open refuses. -/
theorem slotless_lost : ¬ ∀ (store : Store) (db : Batches) (mode : OpenMode) (scratchSize : Nat) (opened host : Host)
    (events : List Event), Present store → Slotless (store.content .database) →
    Host.call ⟨store, db⟩ (.openPair mode scratchSize) = (.ok .none, opened) →
    Permitted Unexpired opened events host → batchReady host.db = .ok () → Salvages Unexpired host := by
  intro claim
  have ran : (Host.call ⟨cutStore 33, batchesInit⟩ (.openPair .openExisting batchScratch)).1 = .ok .none := by
    decide +kernel
  have opened : Host.call ⟨cutStore 33, batchesInit⟩ (.openPair .openExisting batchScratch) = (.ok .none, openedCut 33) := by
    rw [openedCut, ← ran]
  have filled : Permitted Unexpired (openedCut 33) _ (filledCut 33) :=
    .step (.start _) (fun _ _ same => by cases same) (call_step _ (.append [⟨1, 2, 3⟩] batchScratch))
  have salvages := claim (cutStore 33) _ _ _ _ _ _ ⟨rfl, rfl⟩ (by decide +kernel) opened filled (by decide +kernel)
  obtain ⟨items, exposes, _⟩ := salvages.exposes
  have reopens := salvages.recovers items batchScratch _ [] _ exposes (fun _ _ same => by cases same)
    (reboot_step _ _ 3) (.start _) (fun event member => by cases member) rfl
  have accepted := (reopens .openExisting batchScratch (by decide) (Nat.le_refl _)).1
  have refused : (((filledCut 33).reboot (.checkpoint batchScratch) 3).call (.openPair .openExisting batchScratch)).1 =
      .error .invalidDatabase := by decide +kernel
  rw [refused] at accepted
  cases accepted

end Torn

end Timelite.Salvaging
