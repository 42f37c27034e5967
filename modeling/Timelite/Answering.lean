import Timelite.Refinement

/-!
Calls on a handle that serves a content, whatever is dormant in the other slot or
behind the data: each answers as the abstract database does. What a crash leaves
is not promised.
-/
namespace Timelite.Answering
open ByteFile Program Durable Codec CodecLaws Backend BackendLaws Layout WalLaws Contents Images Crashes Databases Calls
  Appending Checkpointing Retaining Cursor Expiring Reader Retention BatchApi Opening Atomicity Aggregating System Refinement

/-- A handle that serves the content of a view. -/
structure Steady (host : Host) (identity : Bytes) (v : View) : Prop where
  serving : Serving host.store host.db identity v.content v.m
  honest : Honest v.content
  delivers : Delivers host.db v.content v.position

section Calls
variable {P : Bytes → Bytes → Prop} {store : Store} {db : Batches} {identity : Bytes} {v : View} {act : Act} {host : Host}

/-- No image is ruled out. -/
def Free (_ _ : Bytes) : Prop := True

theorem free_guards (d w : Bytes) (content : Content) (m : Manifests) (some : content.pending ≠ []) :
    Guards Free (fun _ => True) d w content m some where
  before := trivial
  upgrade := fun _ _ _ => trivial
  start := trivial
  bears := fun _ _ _ _ _ _ => trivial
  weaken := fun _ _ => trivial
  torn := fun _ _ => trivial
  whole := trivial
  reclaim := trivial

/-- What a call makes of the database file. -/
inductive Changed (identity : Bytes) (store after : Store) (v v' : View) : Prop where
  | same (database : after.content .database = store.content .database) (manifests : v'.m = v.m) :
      Changed identity store after v v'
  | installed (some : v.content.pending ≠ [])
      (space : v.content.dataEnd + (64 + framesSize v.content.pending) ≤ databaseCapacity)
      (more : v.m.state.revision ≠ uint64Max)
      (database : after.content .database = withManifest v.content v.m (store.content .database) some)
      (content : v'.content = v.content.checkpoint some space) (manifests : v'.m = nextManifests v.content v.m) :
      Changed identity store after v v'
  | moved (stored : Stored (after.content .database) identity v'.content v'.m)
      (slack : Slack (after.content .database) v'.content v'.m) (later : v.m.state.revision < v'.m.state.revision) :
      Changed identity store after v v'

/-- Every call answers as the abstract database does, or fails and leaves the
handle as it was or poisoned. -/
theorem steady_performs (steady : Steady ⟨store, db⟩ identity v) (other : act ≠ .close) :
    ∃ result v' db' after, Performs Free (act.perform db) db store (result, db') after ∧
      Answers act v result v' ∧ Steady ⟨after, db'⟩ identity v' ∧ Changed identity store after v v' := by
  have serving := steady.serving
  have safe : Safe Free store := safe_synced serving.synced trivial
  have kept : Changed identity store store v v := .same rfl rfl
  have reads : ReadOnly act → ∃ result v' db' after, Performs Free (act.perform db) db store (result, db') after ∧
      Answers act v result v' ∧ Steady ⟨after, db'⟩ identity v' ∧ Changed identity store after v v' := by
    intro only
    obtain ⟨result, v', db', consults⟩ := reads_consults serving safe steady.delivers steady.honest only
    refine ⟨result, v', db', store, consults.performs, consults.answers, ⟨?_, ?_, consults.delivers⟩,
      .same rfl consults.manifest⟩
    · rw [consults.content, consults.manifest]
      exact serving_moved serving consults.moved
    · rw [consults.content]
      exact steady.honest
  cases act with
  | openPair mode scratchSize =>
      exact ⟨_, v, db, store, performs_open safe serving.tracks.database mode scratchSize, .busy _ _ v, steady, kept⟩
  | close => exact absurd rfl other
  | append records scratchSize =>
      cases refusal : appendRefusal v.content records scratchSize with
      | some error =>
          have refused : Performs Free (batchesAppend db records scratchSize) db store (.error error, db) store := by
            rw [append_cases serving, refusal]
            exact calls_done safe
          exact ⟨_, v, db, store, performs_answering refused, .appendRefused _ _ v error refusal, steady, kept⟩
      | none =>
          obtain ⟨batch, rfl, accepted⟩ := accepted_of_none refusal
          obtain ⟨after, performs, serving', database⟩ := append_performs serving accepted refusal safe fun _ => trivial
          have delivers := @delivers_append db v.content batch accepted.more accepted.space v.position steady.delivers
          exact ⟨_, { v with content := v.content.append batch accepted.more accepted.space }, _, after,
            performs_answering performs, .append batch scratchSize v accepted refusal, ⟨serving',
              honest_effect steady.honest (.append batch scratchSize v.content accepted),
              delivers.fields rfl rfl rfl rfl⟩, .same database rfl⟩
  | checkpoint scratchSize =>
      cases refusal : checkpointRefusal v.content v.m scratchSize with
      | some error =>
          have refused : Performs Free (batchesCheckpoint db scratchSize) db store (.error error, db) store := by
            rw [checkpoint_refused serving refusal]
            exact calls_done safe
          exact ⟨_, v, db, store, performs_answering refused, .checkpointRefused _ v error refusal, steady, kept⟩
      | none =>
          by_cases empty : v.content.pending = []
          · have nothing : Performs Free (batchesCheckpoint db scratchSize) db store (.ok (), db) store := by
              rw [checkpoint_nothing serving refusal empty]
              exact calls_done safe
            exact ⟨_, v, db, store, performs_answering nothing, .checkpointNothing _ v refusal empty, steady, kept⟩
          · obtain ⟨_, more, space⟩ := checkpoint_bounds refusal empty
            obtain ⟨after, performs, synced, database, wal⟩ :=
              checkpoint_performs serving empty refusal (free_guards _ _ _ _ empty)
            exact ⟨_, ⟨v.content.checkpoint empty space, nextManifests v.content v.m, v.position⟩, _, after,
              performs_answering performs, .checkpoint scratchSize v refusal empty space,
              ⟨checkpoint_serving serving empty space more synced database wal,
                honest_effect steady.honest (.checkpoint scratchSize v.content empty space),
                @delivers_checkpoint db v.content v.m empty space v.position serving.tracks steady.delivers⟩,
              .installed empty space more database rfl rfl⟩
  | expireBefore cutoff scratchSize =>
      cases refusal : expireRefusal v.content v.m cutoff scratchSize with
      | some error =>
          exact ⟨_, v, db, store, performs_answering (expire_refused serving safe refusal),
            .expireRefused _ _ v error refusal, steady, kept⟩
      | none =>
          by_cases all : (v.content.kept cutoff).length = v.content.segments.length
          · exact ⟨_, v, db, store, performs_answering (expire_nothing serving safe (expire_large refusal) all),
              .expireNothing _ _ v refusal all, steady, kept⟩
          · obtain ⟨after, db', revision, performs, stored, settled, delivers, low, high, _⟩ :=
              @expire_performs False Free store db identity v.content v.m cutoff scratchSize v.position serving refusal all
                steady.delivers (fun never => never.elim) fun _ _ => trivial
            exact ⟨_, ⟨v.content.expire cutoff, retained (v.content.expire cutoff) revision 160 0, v.position⟩, db', after,
              performs_answering performs, .expire cutoff scratchSize revision v refusal all low high,
              ⟨settled.serving, honest_effect steady.honest (.expire cutoff scratchSize v.content), delivers⟩,
              .moved stored settled.slack low⟩
  | next | nextRange | seek | aggregateRange | rewind | getStatus => exact reads trivial

theorem steady_call (steady : Steady host identity v) (other : act ≠ .close) :
    ∃ v', Answers act v (host.call act).1 v' ∧ Steady (host.call act).2 identity v' ∧
      Changed identity host.store (host.call act).2.store v v' := by
  obtain ⟨result, v', db', after, performs, answers, steady', changed⟩ := steady_performs steady other
  have ran : host.call act = (result, ⟨after, db'⟩) := by rw [Host.call, performs.1]
  rw [ran]
  exact ⟨v', answers, steady', changed⟩

/-- Where a call returns, disturbed or not, the handle is steady again, or poisoned. -/
theorem steady_step {result : Except Error Answer} {last : Host} (steady : Steady host identity v) (other : act ≠ .close)
    (step : Step host (.returned act result) last) :
    (∃ v', Steady last identity v' ∧ Changed identity host.store last.store v v' ∧
      (v' = v ∨ Answers act v result v')) ∨ last.db.failed = true := by
  obtain ⟨value, v', db', after, performs, answers, steady', changed⟩ := steady_performs steady other
  cases step with
  | @returned _ _ db store execution =>
      rcases (performs.2 _ _ execution).2 _ rfl with ⟨same, ended⟩ | ⟨code, same, ended⟩ | ⟨code, db'', same, poisoned⟩
      · cases same
        exact .inl ⟨v', ended ▸ steady', ended ▸ changed, .inr answers⟩
      · cases same
        exact .inl ⟨v, ended ▸ steady, ended ▸ .same rfl rfl, .inl rfl⟩
      · cases same
        exact .inr poisoned

theorem serving_close (serving : Serving host.store host.db identity v.content v.m) :
    host.call .close = (.ok .none, ⟨host.store, batchesInit⟩) := by
  have tracks := serving.tracks
  have open_ : ¬ (host.db.database = false ∧ host.db.wal = false) := by simp [tracks.wal]
  rw [Host.call, Act.perform, batchesClose, if_neg open_]
  simp only [tracks.wal, tracks.database]
  rfl

end Calls

end Timelite.Answering
