import Timelite.System

/-!
Calls on a live pair: each takes a step of the abstract database, whose state is
the content, the manifest in force and the position of the cursor.
-/
namespace Timelite.Refinement
open ByteFile Program Durable Codec CodecLaws Backend BackendLaws Layout HeaderWalk WalLaws Contents Images Crashes Databases Calls
  Appending Checkpointing Retaining Cursor Expiring Reader BatchApi Opening Atomicity Seeking Ranging Aggregating System

structure View where
  content : Content
  m : Manifests
  position : Nat

def statusOf (content : Content) : Status where
  committedBatches := live content.segments + content.pending.length
  installedBatches := live content.segments
  pendingBatches := content.pending.length
  installedSegments := content.segments.length
  walBytes := content.walEnd
  installedBytes := extent content.segments
  lastTimestamp := content.floor

/-- The headers of a pair tell the truth about their records. -/
def Honest (content : Content) : Prop := ∀ segment ∈ content.segments, segment.Truthful

/-- What a call on an open handle answers when nothing fails, and what it makes of the database. -/
inductive Answers : Act → View → Except Error Answer → View → Prop where
  | busy (mode : OpenMode) (scratchSize : Nat) (v : View) :
      Answers (.openPair mode scratchSize) v (.error (.errno .einval)) v
  | appendRefused (records : List Record) (scratchSize : Nat) (v : View) (error : Error)
      (refused : appendRefusal v.content records scratchSize = some error) :
      Answers (.append records scratchSize) v (.error error) v
  | append (batch : Batch) (scratchSize : Nat) (v : View) (accepted : Accepted v.content batch)
      (none : appendRefusal v.content batch.records scratchSize = none) :
      Answers (.append batch.records scratchSize) v (.ok (.sequence (v.content.high + 1)))
        { v with content := v.content.append batch accepted.more accepted.space }
  | checkpointRefused (scratchSize : Nat) (v : View) (error : Error)
      (refused : checkpointRefusal v.content v.m scratchSize = some error) :
      Answers (.checkpoint scratchSize) v (.error error) v
  | checkpointNothing (scratchSize : Nat) (v : View) (accepted : checkpointRefusal v.content v.m scratchSize = none)
      (empty : v.content.pending = []) :
      Answers (.checkpoint scratchSize) v (.ok .none) v
  | checkpoint (scratchSize : Nat) (v : View) (accepted : checkpointRefusal v.content v.m scratchSize = none)
      (some : v.content.pending ≠ [])
      (space : v.content.dataEnd + (64 + framesSize v.content.pending) ≤ databaseCapacity) :
      Answers (.checkpoint scratchSize) v (.ok .none)
        { v with content := v.content.checkpoint some space, m := nextManifests v.content v.m }
  | expireRefused (cutoff scratchSize : Nat) (v : View) (error : Error)
      (refused : expireRefusal v.content v.m cutoff scratchSize = some error) :
      Answers (.expireBefore cutoff scratchSize) v (.error error) v
  | expireNothing (cutoff scratchSize : Nat) (v : View) (accepted : expireRefusal v.content v.m cutoff scratchSize = none)
      (all : (v.content.kept cutoff).length = v.content.segments.length) :
      Answers (.expireBefore cutoff scratchSize) v (.ok .none) v
  | expire (cutoff scratchSize revision : Nat) (v : View)
      (accepted : expireRefusal v.content v.m cutoff scratchSize = none)
      (some : (v.content.kept cutoff).length ≠ v.content.segments.length) (low : v.m.state.revision < revision)
      (high : revision ≤ v.m.state.revision + 4) :
      Answers (.expireBefore cutoff scratchSize) v (.ok .none)
        { v with content := v.content.expire cutoff, m := retained (v.content.expire cutoff) revision 160 0 }
  | nextSmall (capacity scratchSize : Nat) (v : View) (small : scratchSize < batchScratch) :
      Answers (.next capacity scratchSize) v (.error .bufferTooSmall) v
  | nextEnd (capacity scratchSize : Nat) (v : View) (large : batchScratch ≤ scratchSize)
      (none : due v.content v.position = []) :
      Answers (.next capacity scratchSize) v (.error .endOfData) v
  | nextShort (capacity scratchSize : Nat) (v : View) (sequence : Nat) (batch : Batch) (later : List (Nat × Batch))
      (large : batchScratch ≤ scratchSize) (first : due v.content v.position = (sequence, batch) :: later)
      (short : capacity < batch.records.length) :
      Answers (.next capacity scratchSize) v (.error .bufferTooSmall) v
  | next (capacity scratchSize : Nat) (v : View) (sequence : Nat) (batch : Batch) (later : List (Nat × Batch))
      (large : batchScratch ≤ scratchSize) (first : due v.content v.position = (sequence, batch) :: later)
      (fits : batch.records.length ≤ capacity) :
      Answers (.next capacity scratchSize) v (.ok (.batch sequence batch.records)) { v with position := sequence + 1 }
  | rangeRefused (range : Range) (capacity scratchSize : Nat) (v : View) (error : Error)
      (refused : rangeRefusal range scratchSize = some error) :
      Answers (.nextRange range capacity scratchSize) v (.error error) v
  | rangeEnd (range : Range) (capacity scratchSize : Nat) (v : View)
      (accepted : rangeRefusal range scratchSize = none)
      (late : Located v.content → (due v.content v.position).find? (hasHit range) = none) :
      Answers (.nextRange range capacity scratchSize) v (.error .endOfData) v
  | rangeShort (range : Range) (capacity scratchSize : Nat) (v : View) (item : Nat × Batch)
      (accepted : rangeRefusal range scratchSize = none)
      (found : (due v.content v.position).find? (hasHit range) = some item)
      (small : capacity < (hits range item.2).length) :
      Answers (.nextRange range capacity scratchSize) v (.error .bufferTooSmall) v
  | range (range : Range) (capacity scratchSize : Nat) (v : View) (item : Nat × Batch)
      (accepted : rangeRefusal range scratchSize = none)
      (found : (due v.content v.position).find? (hasHit range) = some item)
      (fits : (hits range item.2).length ≤ capacity) :
      Answers (.nextRange range capacity scratchSize) v (.ok (.batch item.1 (hits range item.2)))
        { v with position := item.1 + 1 }
  | seekSmall (from_us scratchSize : Nat) (v : View) (small : scratchSize < batchScratch) :
      Answers (.seek from_us scratchSize) v (.error .bufferTooSmall) v
  | seek (from_us scratchSize : Nat) (v : View) (item : Nat × Batch) (large : batchScratch ≤ scratchSize)
      (found : sought v.content from_us = some item) :
      Answers (.seek from_us scratchSize) v (.ok .none) { v with position := item.1 }
  | seekEnd (from_us scratchSize : Nat) (v : View) (large : batchScratch ≤ scratchSize)
      (none : sought v.content from_us = none) :
      Answers (.seek from_us scratchSize) v (.error .endOfData) { v with position := v.content.high + 1 }
  | aggregate (range : Range) (scratchSize : Nat) (v : View) (result : Except Error Aggregate)
      (exact : Located v.content → result = aggregated v.content range scratchSize) :
      Answers (.aggregateRange range scratchSize) v (result.map .aggregate) v
  | rewind (v : View) : Answers .rewind v (.ok .none) { v with position := 1 }
  | status (v : View) : Answers .getStatus v (.ok (.status (statusOf v.content))) v

section Answering
variable {P : Bytes → Bytes → Prop} {store after : Store} {db db' : Batches} {α : Type}

theorem run_answering {answer : α → Answer} {call : Op α} {result : Except Error α}
    (ran : Prog.run device call store = ((result, db'), after)) :
    Prog.run device (answering answer call) store = ((result.map answer, db'), after) := by
  refine (run_bind device call _ store).trans ?_
  rw [ran]
  rfl

theorem performs_answering {answer : α → Answer} {call : Op α} {result : Except Error α}
    (performs : Performs P call db store (result, db') after) :
    Performs P (answering answer call) db store (result.map answer, db') after := by
  refine ⟨run_answering performs.1, fun outcome last execution => ?_⟩
  rcases exec_bind device execution with ⟨ended, inside⟩ | ⟨value, middle, front, tail⟩
  · exact ⟨(performs.2 _ _ inside).1, fun result found => by rw [ended] at found; cases found⟩
  · obtain ⟨safe, results⟩ := performs.2 _ _ front
    obtain ⟨rfl, same⟩ := exec_done device tail
    refine ⟨safe, fun value' found => ?_⟩
    rw [same value' found]
    rcases results value rfl with ⟨rfl, rfl⟩ | ⟨code, rfl, rfl⟩ | ⟨code, db'', rfl, poisoned⟩
    · exact .inl ⟨rfl, rfl⟩
    · exact .inr (.inl ⟨code, rfl, rfl⟩)
    · exact .inr (.inr ⟨code, db'', rfl, poisoned⟩)

theorem performs_open (safe : Safe P store) (held : db.database = true) (mode : OpenMode) (scratchSize : Nat) :
    Performs P (answering (fun _ => .none) (batchesOpen db mode scratchSize)) db store
      (.error (.errno .einval), db) store := by
  have refused : Performs P (batchesOpen db mode scratchSize) db store (.error (.errno .einval), db) store := by
    rw [open_held (.inl held)]
    exact calls_done safe
  exact performs_answering refused

end Answering

section Effects

/-- What a writing call can make of the content. -/
inductive Effect : Act → Content → Content → Prop where
  | append (batch : Batch) (scratchSize : Nat) (content : Content) (accepted : Accepted content batch) :
      Effect (.append batch.records scratchSize) content (content.append batch accepted.more accepted.space)
  | checkpoint (scratchSize : Nat) (content : Content) (some : content.pending ≠ [])
      (space : content.dataEnd + (64 + framesSize content.pending) ≤ databaseCapacity) :
      Effect (.checkpoint scratchSize) content (content.checkpoint some space)
  | expire (cutoff scratchSize : Nat) (content : Content) :
      Effect (.expireBefore cutoff scratchSize) content (content.expire cutoff)

theorem answers_effect {act : Act} {v v' : View} {result : Except Error Answer} (answers : Answers act v result v') :
    v'.content = v.content ∨ Effect act v.content v'.content := by
  cases answers with
  | append batch scratchSize v accepted none => exact .inr (.append batch scratchSize _ accepted)
  | checkpoint scratchSize v accepted some space => exact .inr (.checkpoint scratchSize _ some space)
  | expire cutoff scratchSize revision v accepted some low high => exact .inr (.expire cutoff scratchSize _)
  | _ => exact .inl rfl

theorem honest_effect {act : Act} {content content' : Content} (honest : Honest content)
    (effect : Effect act content content') : Honest content' := by
  cases effect with
  | append batch scratchSize content accepted => exact honest
  | checkpoint scratchSize content some space =>
      intro segment member
      rcases List.mem_append.mp member with old | new
      · exact honest segment old
      · rw [List.mem_singleton.mp new]
        exact content.pending_segment_truthful some
  | expire cutoff scratchSize content => exact fun segment member => honest segment (List.mem_filter.mp member).1

/-- Some content of the family is held by both images. -/
def Leaves (φ : Content → Prop) (identity d w : Bytes) : Prop :=
  ∃ content, φ content ∧ Recovers False identity content d w

theorem leaves_held {φ : Content → Prop} {identity d w : Bytes} {content : Content} {clean : Prop} (holds : φ content)
    (held : Held identity content d) (replays : Replays clean identity content w) : Leaves φ identity d w :=
  ⟨content, holds, held, replays.weaken fun impossible => impossible.elim⟩

/-- How the database of a content has come about from the one before the call. -/
inductive Came (identity : Bytes) (v : View) (before : Bytes) (content : Content) (d : Bytes) : Prop where
  | kept (segments : content.segments = v.content.segments) (last : content.installed = v.content.installed)
      (time : content.installedTime = v.content.installedTime) (unpublished : Unpublished v.m before d) :
      Came identity v before content d
  | installed (last : v.content.installed < content.installed) (dataEnd : v.content.dataEnd < content.dataEnd)
      (superseded : Superseded identity v.content v.m d) : Came identity v before content d
  | finishing (finishing : Finishing identity content d) : Came identity v before content d

theorem came_kept {identity d : Bytes} {v : View} (stored : Stored d identity v.content v.m) : Came identity v d v.content d :=
  .kept rfl rfl rfl (unpublished_refl stored.current)

/-- What a call can leave: the content before it, or one that it makes. -/
def Leaving (identity : Bytes) (v : View) (act : Act) (before d w : Bytes) : Prop :=
  ∃ content, (content = v.content ∨ Effect act v.content content) ∧ Recovers False identity content d w ∧
    Came identity v before content d

end Effects

section Steps
variable {φ : Content → Prop} {store : Store} {db : Batches} {identity : Bytes} {v : View}

theorem live_safe (live : Live store db identity v.content v.m v.position) (holds : φ v.content) :
    Safe (Leaves φ identity) store :=
  safe_synced live.settled.synced ⟨v.content, holds, live.recovers⟩

theorem live_here (live : Live store db identity v.content v.m v.position) (act : Act) :
    Safe (Leaving identity v act (store.content .database)) store :=
  safe_synced live.settled.synced ⟨v.content, .inl rfl, live.recovers, came_kept live.stored⟩

theorem live_append (live : Live store db identity v.content v.m v.position) (records : List Record)
    (scratchSize : Nat) :
    ∃ result v' db' after,
      Performs (Leaving identity v (.append records scratchSize) (store.content .database))
        (Act.perform db (.append records scratchSize)) db store (result, db') after ∧
      Answers (.append records scratchSize) v result v' ∧ Live after db' identity v'.content v'.m v'.position ∧
      Came identity v (store.content .database) v'.content (after.content .database) := by
  have safe := live_here live (.append records scratchSize)
  cases refusal : appendRefusal v.content records scratchSize with
  | some error =>
      exact ⟨_, v, db, store, performs_answering (append_refused live.settled safe refusal),
        .appendRefused _ _ v error refusal, live, came_kept live.stored⟩
  | none =>
      obtain ⟨batch, rfl, accepted⟩ := accepted_of_none refusal
      have torn : ∀ count, Leaving identity v (.append batch.records scratchSize) (store.content .database)
          (store.content .database) (store.content .wal ++ (frame (v.content.high + 1) batch.records).take count) := by
        intro count
        have image := append_image live.settled accepted count
        split at image
        · exact ⟨_, .inl rfl, ⟨live.held, .logged _ image fun impossible => impossible.elim⟩, came_kept live.stored⟩
        · exact ⟨_, .inr (.append batch scratchSize _ accepted), ⟨held_append live.held accepted.more accepted.space,
            .logged _ image fun impossible => impossible.elim⟩, .kept rfl rfl rfl (unpublished_refl live.stored.current)⟩
      obtain ⟨after, performs, live', same⟩ := append_live live accepted refusal torn
      refine ⟨_, { v with content := v.content.append batch accepted.more accepted.space }, _, after,
        performs_answering performs, .append batch scratchSize v accepted refusal, live', ?_⟩
      rw [same]
      exact .kept rfl rfl rfl (unpublished_refl live.stored.current)

theorem live_checkpoint (live : Live store db identity v.content v.m v.position) (scratchSize : Nat) :
    ∃ result v' db' after,
      Performs (Leaving identity v (.checkpoint scratchSize) (store.content .database))
        (Act.perform db (.checkpoint scratchSize)) db store (result, db') after ∧
      Answers (.checkpoint scratchSize) v result v' ∧ Live after db' identity v'.content v'.m v'.position ∧
      Came identity v (store.content .database) v'.content (after.content .database) := by
  have safe := live_here live (.checkpoint scratchSize)
  cases refusal : checkpointRefusal v.content v.m scratchSize with
  | some error =>
      have refused : Performs (Leaving identity v (.checkpoint scratchSize) (store.content .database))
          (batchesCheckpoint db scratchSize) db store (.error error, db) store := by
        rw [checkpoint_refused live.settled.serving refusal]
        exact calls_done safe
      exact ⟨_, v, db, store, performs_answering refused, .checkpointRefused _ v error refusal, live, came_kept live.stored⟩
  | none =>
      by_cases empty : v.content.pending = []
      · have nothing : Performs (Leaving identity v (.checkpoint scratchSize) (store.content .database))
            (batchesCheckpoint db scratchSize) db store (.ok (), db) store := by
          rw [checkpoint_nothing live.settled.serving refusal empty]
          exact calls_done safe
        exact ⟨_, v, db, store, performs_answering nothing, .checkpointNothing _ v refusal empty, live, came_kept live.stored⟩
      · obtain ⟨_, _, space⟩ := checkpoint_bounds refusal empty
        have effect := Effect.checkpoint scratchSize v.content empty space
        obtain ⟨last, dataEnd⟩ := checkpoint_grows v.content empty space
        obtain ⟨after, performs, live', superseded⟩ := checkpoint_live live empty refusal space
          (fun d held unpublished => show Leaving identity v (.checkpoint scratchSize) (store.content .database) d _ from
            ⟨_, .inl rfl, ⟨held, (live.recovers : Recovers False identity v.content _ _).2⟩, .kept rfl rfl rfl unpublished⟩)
          (fun d w held superseded replays => ⟨_, .inr effect, ⟨held, replays.weaken fun impossible => impossible.elim⟩,
            .installed last dataEnd superseded⟩)
        exact ⟨_, ⟨v.content.checkpoint empty space, nextManifests v.content v.m, v.position⟩, _, after,
          performs_answering performs, .checkpoint scratchSize v refusal empty space, live',
          .installed last dataEnd superseded⟩

theorem live_expire (live : Live store db identity v.content v.m v.position) (cutoff scratchSize : Nat) :
    ∃ result v' db' after,
      Performs (Leaving identity v (.expireBefore cutoff scratchSize) (store.content .database))
        (Act.perform db (.expireBefore cutoff scratchSize)) db store (result, db') after ∧
      Answers (.expireBefore cutoff scratchSize) v result v' ∧
      Live after db' identity v'.content v'.m v'.position ∧
      Came identity v (store.content .database) v'.content (after.content .database) := by
  have safe := live_here live (.expireBefore cutoff scratchSize)
  have settled := live.settled
  cases refusal : expireRefusal v.content v.m cutoff scratchSize with
  | some error =>
      exact ⟨_, v, db, store, performs_answering (expire_refused settled.serving safe refusal),
        .expireRefused _ _ v error refusal, live, came_kept live.stored⟩
  | none =>
      by_cases all : (v.content.kept cutoff).length = v.content.segments.length
      · exact ⟨_, v, db, store, performs_answering (expire_nothing settled.serving safe (expire_large refusal) all),
          .expireNothing _ _ v refusal all, live, came_kept live.stored⟩
      · have effect := Effect.expire cutoff scratchSize v.content
        have replays : Replays False identity v.content (store.content .wal) :=
          (live.recovers : Recovers False identity v.content _ _).2
        have logged : Replays False identity (v.content.expire cutoff) (store.content .wal) :=
          .logged [] ⟨settled.logged.bytes, settled.logged.torn, settled.logged.more, settled.logged.fits⟩
            fun _ => .inl rfl
        have left : ∀ d, Relocating identity v.content cutoff v.m (store.content .database) d →
            Leaving identity v (.expireBefore cutoff scratchSize) (store.content .database) d (store.content .wal) := by
          intro d relocating
          cases relocating with
          | idle stored length unpublished =>
              have held : Held identity v.content d :=
                ⟨v.m, stored, fun idle => by rw [length]; exact settled.slack idle, fun busy => absurd settled.phase busy⟩
              exact ⟨_, .inl rfl, ⟨held, replays⟩, .kept rfl rfl rfl unpublished⟩
          | frozen finishing => exact ⟨_, .inl rfl, ⟨finishing.held, replays⟩, .finishing finishing⟩
          | moved finishing => exact ⟨_, .inr effect, ⟨finishing.held, logged⟩, .finishing finishing⟩
        obtain ⟨after, db', revision, performs, live', low, high, finished⟩ := expire_live live refusal all left
        exact ⟨_, ⟨v.content.expire cutoff, retained (v.content.expire cutoff) revision 160 0, v.position⟩, db', after,
          performs_answering performs, .expire cutoff scratchSize revision v refusal all low high, live', .finishing finished⟩

-- What a reading call leaves.
theorem live_moved {db' : Batches} {content : Content} {m : Manifests} {position position' : Nat}
    (live : Live store db identity content m position) (moved : Moved db db')
    (delivers : Delivers db' content position') : Live store db' identity content m position' :=
  ⟨(serving_moved live.settled.serving moved).settled live.settled.chosen live.settled.slack, live.stored, delivers⟩

/-- A call that only reads answers and moves at most the cursor. -/
structure Consults (P : Bytes → Bytes → Prop) (act : Act) (store : Store) (db : Batches) (v : View)
    (result : Except Error Answer) (v' : View) (db' : Batches) : Prop where
  performs : Performs P (act.perform db) db store (result, db') store
  answers : Answers act v result v'
  moved : Moved db db'
  content : v'.content = v.content
  manifest : v'.m = v.m
  delivers : Delivers db' v'.content v'.position

end Steps

section Reads
variable {P : Bytes → Bytes → Prop} {store : Store} {db : Batches} {identity : Bytes} {v : View}

theorem next_consults (serving : Serving store db identity v.content v.m) (safe : Safe P store)
    (delivers : Delivers db v.content v.position) (capacity scratchSize : Nat) :
    ∃ result v' db', Consults P (.next capacity scratchSize) store db v result v' db' := by
  by_cases small : scratchSize < batchScratch
  · have refused : Performs P (batchesNext db capacity scratchSize) db store (.error .bufferTooSmall, db) store := by
      unfold batchesNext
      rw [serving.read_arguments, if_pos small]
      exact calls_done safe
    exact ⟨_, v, db, performs_answering refused, .nextSmall _ _ v small, moved_refl db, rfl, rfl, delivers⟩
  · have large : batchScratch ≤ scratchSize := by omega
    cases ahead : due v.content v.position with
    | nil =>
        exact ⟨_, v, db, performs_answering (next_end serving safe delivers large ahead), .nextEnd _ _ v large ahead,
          moved_refl db, rfl, rfl, delivers⟩
    | cons item later =>
        obtain ⟨sequence, batch⟩ := item
        obtain ⟨db', performs, moved, delivers'⟩ :=
          @next_batch store db v.content _ identity v.m v.position capacity scratchSize sequence batch later
            serving safe delivers large ahead
        by_cases short : capacity < batch.records.length
        · rw [if_pos short] at performs
          exact ⟨_, v, db, performs_answering performs, .nextShort _ _ v sequence batch later large ahead short,
            moved_refl db, rfl, rfl, delivers⟩
        · rw [if_neg short] at performs
          exact ⟨_, { v with position := sequence + 1 }, db', performs_answering performs,
            .next capacity scratchSize v sequence batch later large ahead (by omega), moved, rfl, rfl, delivers'⟩

theorem range_consults (serving : Serving store db identity v.content v.m) (safe : Safe P store)
    (delivers : Delivers db v.content v.position) (honest : Honest v.content) (range : Range)
    (capacity scratchSize : Nat) :
    ∃ result v' db', Consults P (.nextRange range capacity scratchSize) store db v result v' db' := by
  cases refusal : rangeRefusal range scratchSize with
  | some error =>
      exact ⟨_, v, db, performs_answering (range_refused serving safe refusal), .rangeRefused _ _ _ v error refusal,
        moved_refl db, rfl, rfl, delivers⟩
  | none =>
      obtain ⟨result, performs, shape⟩ := @range_performs P store db v.content identity v.m range
        v.position capacity scratchSize serving honest safe delivers refusal
      cases shape with
      | batch item db' found fits moved delivers' =>
          exact ⟨_, { v with position := item.1 + 1 }, db', performs_answering performs,
            .range range capacity scratchSize v item refusal found fits, moved, rfl, rfl, delivers'⟩
      | large item found small =>
          exact ⟨_, v, db, performs_answering performs, .rangeShort _ _ _ v item refusal found small, moved_refl db,
            rfl, rfl, delivers⟩
      | none late =>
          exact ⟨_, v, db, performs_answering performs, .rangeEnd _ _ _ v refusal late, moved_refl db, rfl, rfl,
            delivers⟩

theorem seek_consults (serving : Serving store db identity v.content v.m) (safe : Safe P store)
    (delivers : Delivers db v.content v.position) (honest : Honest v.content) (from_us scratchSize : Nat) :
    ∃ result v' db', Consults P (.seek from_us scratchSize) store db v result v' db' := by
  by_cases small : scratchSize < batchScratch
  · have refused : Performs P (batchesSeek db from_us scratchSize) db store (.error .bufferTooSmall, db) store := by
      unfold batchesSeek
      rw [serving.read_arguments, if_pos small]
      exact calls_done safe
    exact ⟨_, v, db, performs_answering refused, .seekSmall _ _ v small, moved_refl db, rfl, rfl, delivers⟩
  · have large : batchScratch ≤ scratchSize := by omega
    have sought' := @seek_performs store db v.content from_us P identity v.m scratchSize serving honest safe large
    cases found : sought v.content from_us with
    | some item =>
        rw [found] at sought'
        obtain ⟨db', performs, moved, delivers'⟩ := sought'
        exact ⟨_, { v with position := item.1 }, db', performs_answering performs,
          .seek from_us scratchSize v item large found, moved, rfl, rfl, delivers'⟩
    | none =>
        rw [found] at sought'
        obtain ⟨db', performs, moved, delivers'⟩ := sought'
        exact ⟨_, { v with position := v.content.high + 1 }, db', performs_answering performs,
          .seekEnd from_us scratchSize v large found, moved, rfl, rfl, delivers'⟩

theorem status_of (tracks : Tracks db v.content) (ready : batchReady db = .ok ()) :
    batchesGetStatus db = .ok (statusOf v.content) := by
  have pending : sub64 v.content.high v.content.installed = v.content.pending.length := by
    rw [Content.high, sub64_eq (Nat.le_add_right _ _) v.content.numbered, Nat.add_sub_cancel_left]
  rw [batchesGetStatus, ready]
  simp only [statusOf, pending, tracks.liveBatches, tracks.sequence, tracks.installed, tracks.generation, tracks.walEnd,
    tracks.dataEnd, tracks.lastTime, Content.dataEnd, dataStart, Nat.add_sub_cancel_left]

/-- The calls that write nothing. -/
def ReadOnly : Act → Prop
  | .next _ _ | .nextRange _ _ _ | .seek _ _ | .aggregateRange _ _ | .rewind | .getStatus => True
  | _ => False

theorem reads_consults {act : Act} (serving : Serving store db identity v.content v.m) (safe : Safe P store)
    (delivers : Delivers db v.content v.position) (honest : Honest v.content) (reads : ReadOnly act) :
    ∃ result v' db', Consults P act store db v result v' db' := by
  cases act with
  | openPair | close | append | checkpoint | expireBefore => exact reads.elim
  | next capacity scratchSize => exact next_consults serving safe delivers capacity scratchSize
  | nextRange range capacity scratchSize => exact range_consults serving safe delivers honest range capacity scratchSize
  | seek from_us scratchSize => exact seek_consults serving safe delivers honest from_us scratchSize
  | aggregateRange range scratchSize =>
      obtain ⟨result, ran⟩ := aggregate_result db range scratchSize store
      refine ⟨_, v, db, performs_answering (performs_observes (observes_aggregate db range scratchSize) safe ran),
        .aggregate range scratchSize v result fun located => ?_, moved_refl db, rfl, rfl, delivers⟩
      have answers := @aggregate_answers store db v.content identity v.m range scratchSize serving honest located
      rw [ran] at answers
      exact congrArg (fun ran => ran.1.1) answers
  | rewind =>
      refine ⟨.ok .none, { v with position := 1 }, resetCursor db, ?_, .rewind v, rfl, rfl, rfl,
        delivers_reset db v.content⟩
      have ran : batchesRewind db = (.ok (), resetCursor db) := by
        rw [batchesRewind, serving.batch_ready]
      rw [Act.perform, ran]
      exact calls_done safe
  | getStatus =>
      refine ⟨.ok (.status (statusOf v.content)), v, db, ?_, .status v, moved_refl db, rfl, rfl, delivers⟩
      rw [Act.perform, status_of serving.tracks serving.batch_ready]
      exact calls_done safe

end Reads

section Runs
variable {φ : Content → Prop} {store : Store} {db : Batches} {identity : Bytes} {v : View}

theorem live_reads {act : Act} (live : Live store db identity v.content v.m v.position) (honest : Honest v.content)
    (reads : ReadOnly act) :
    ∃ result v' db' after,
      Performs (Leaving identity v act (store.content .database)) (act.perform db) db store (result, db') after ∧
      Answers act v result v' ∧ Live after db' identity v'.content v'.m v'.position ∧
      Came identity v (store.content .database) v'.content (after.content .database) := by
  obtain ⟨result, v', db', consults⟩ :=
    reads_consults live.settled.serving (live_here live act) live.delivers honest reads
  have delivers := consults.delivers
  refine ⟨result, v', db', store, consults.performs, consults.answers, ?_⟩
  rw [consults.content] at delivers ⊢
  rw [consults.manifest]
  exact ⟨live_moved live consults.moved delivers, came_kept live.stored⟩

/-- Every call on an open handle answers as the abstract database does, or fails
and leaves the handle as it was or poisoned; whatever is left comes about so. -/
theorem live_leaves {act : Act} (live : Live store db identity v.content v.m v.position) (honest : Honest v.content)
    (other : act ≠ .close) :
    ∃ result v' db' after,
      Performs (Leaving identity v act (store.content .database)) (act.perform db) db store (result, db') after ∧
      Answers act v result v' ∧ Live after db' identity v'.content v'.m v'.position ∧
      Came identity v (store.content .database) v'.content (after.content .database) := by
  cases act with
  | openPair mode scratchSize =>
      exact ⟨_, v, db, store, performs_open (live_here live _) live.settled.tracks.database mode scratchSize,
        .busy _ _ v, live, came_kept live.stored⟩
  | close => exact absurd rfl other
  | append records scratchSize => exact live_append live records scratchSize
  | checkpoint scratchSize => exact live_checkpoint live scratchSize
  | expireBefore cutoff scratchSize => exact live_expire live cutoff scratchSize
  | next | nextRange | seek | aggregateRange | rewind | getStatus => exact live_reads live honest trivial

/-- The same for a family of contents that is closed under what the call makes of them. -/
theorem live_performs {act : Act} (live : Live store db identity v.content v.m v.position) (honest : Honest v.content)
    (holds : φ v.content) (closed : ∀ content', Effect act v.content content' → φ content') (other : act ≠ .close) :
    ∃ result v' db' after, Performs (Leaves φ identity) (act.perform db) db store (result, db') after ∧
      Answers act v result v' ∧ Live after db' identity v'.content v'.m v'.position := by
  obtain ⟨result, v', db', after, performs, answers, live', _⟩ := live_leaves live honest other
  refine ⟨result, v', db', after, performs_mono performs fun d w leaving => ?_, answers, live'⟩
  obtain ⟨content, shape, recovers, _⟩ := leaving
  refine ⟨content, ?_, recovers⟩
  rcases shape with rfl | effect
  · exact holds
  · exact closed content effect

end Runs

end Timelite.Refinement
