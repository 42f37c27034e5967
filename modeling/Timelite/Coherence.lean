import Timelite.Summing

/-!
A handle that calls have kept up to date is the one that open rebuilds from the
files, and open changes nothing there, unless a slot lay dormant.
-/
namespace Timelite.Coherence
open ByteFile Program Durable Codec CodecLaws Backend BackendLaws Layout HeaderWalk WalLaws Contents Images Crashes Databases
  Calls Appending Checkpointing Retaining Cursor Reader Retention BatchApi Opening System Refinement Undisturbed Soundness
  Admitting Answering Reaching Reopening Summing

/-- The bytes of the frames that a WAL behind `m` holds whole. -/
def frameBytes (store : Store) (m : Manifests) : Nat :=
  match (on (scanWal (store.content .wal).length false (store.content .wal).length (startScan m.last)) store).1 with
  | .ok scan => scan.offset - 32
  | .error _ => 0

/-- The pair states the truth, and no more bytes than an interrupted install
leaves are behind its data. -/
structure WellFormed (store : Store) : Prop where
  pair : IntactPair store
  revision : ∀ m, chosen (store.content .database) = some m → m.state.revision < 9223372036854775808
  orphans : ∀ m, chosen (store.content .database) = some m → m.state.phase = 0 →
    (store.content .database).length ≤ m.dataEnd + 64 + frameBytes store m

section Slack
variable {store : Store} {db : Batches} {d identity : Bytes} {content : Content} {m : Manifests} {act : Act}
  {v v' : View} {host last opened : Host} {result : Except Error Answer} {mode : OpenMode} {scratchSize : Nat}

/-- What open tolerates behind the data of a well-formed pair, its own checkpoint will write over. -/
theorem formed_slack {checked : Validated} (formed : WellFormed store) (found : chosen (store.content .database) = some m)
    (installed : Installed (store.content .database) identity content m) (accepted : Opaque.Accepted store checked)
    (read : Read content m (store.content .wal).length checked) : Slack (store.content .database) content m := by
  intro idle
  have orphans := formed.orphans m found idle
  have tolerated := accepted.slack
  have same : checked.manifests = m := Option.some.inj (accepted.found.symm.trans found)
  rw [same] at tolerated
  have within : (checked.stale = true ∨ checked.scan.sequence = m.last) →
      (store.content .database).length ≤ m.dataEnd ∨
        (m.state.enabled = true ∧ m.generation = 0 ∧ (store.content .database).length = 161) := by
    intro spent
    by_contra beyond
    rw [not_or] at beyond
    exact tolerated ⟨Nat.lt_of_not_le beyond.1, idle, beyond.2, spent⟩
  cases stale : checked.stale with
  | true => exact (within (.inl stale)).imp_right .inl
  | false =>
      obtain ⟨before, first, fresh, ran⟩ := accepted.scanned
      rw [stale] at fresh ran
      have none : before = none := by simpa using fresh.symm
      rw [none, same, accepted.size] at ran
      have bytes : frameBytes store m = checked.scan.offset - 32 := by
        rw [frameBytes]
        change (match (on (scanWal _ false _ (startScan ((Option.none : Option Nat).getD m.last))) store).1 with
          | .ok scan => scan.offset - 32
          | .error _ => 0) = _
        rw [ran]
      cases read with
      | leftover first batches ends counted none => cases stale
      | logged =>
          rw [bytes] at orphans
          by_cases empty : content.pending = []
          · refine (within (.inr ?_)).imp_right .inl
            simp only [scanned, empty, List.length_nil, Nat.add_zero]
            exact installed.last.symm
          · refine .inr (.inr ⟨empty, ?_⟩)
            simp only [scanned] at orphans
            omega

-- The manifest in force stays where the database does.
theorem slack_answers (answers : Answers act v result v') (manifests : v'.m = v.m) (slack : Slack d v.content v.m) :
    Slack d v'.content v'.m := by
  cases answers with
  | append batch scratchSize v accepted none => exact slack_append slack accepted.more accepted.space
  | checkpoint scratchSize v accepted some space =>
      have next : v.m.state.revision + 1 = v.m.state.revision := congrArg (fun m => m.state.revision) manifests
      omega
  | expire cutoff scratchSize revision v accepted some low high =>
      have next : revision = v.m.state.revision := congrArg (fun m => m.state.revision) manifests
      omega
  | _ => exact slack

/-- A lasting handle with no more behind its data than open tolerates. -/
structure Resting (host : Host) (identity : Bytes) (v : View) : Prop where
  lasting : Lasting host identity v
  slack : Slack (host.store.content .database) v.content v.m

theorem Resting.settled (resting : Resting host identity v) : Settled host.store host.db identity v.content v.m :=
  resting.lasting.steady.serving.settled resting.lasting.found resting.slack

theorem resting_changed (resting : Resting host identity v) (steady : Steady last identity v')
    (changed : Changed identity host.store last.store v v') (answers : v' = v ∨ Answers act v result v') :
    Resting last identity v' := by
  have lasting := resting.lasting
  refine ⟨lasting_changed lasting steady changed, ?_⟩
  cases changed with
  | same database manifests =>
      rw [database]
      rcases answers with rfl | answers
      · exact resting.slack
      · exact slack_answers answers manifests resting.slack
  | installed some space more database content manifests =>
      intro _
      have length := with_segment_length resting.settled some
      have long : 160 ≤ (withSegment v.content v.m (host.store.content .database) some).length := by
        rw [length]
        simp only [newEnd, Content.dataEnd]
        omega
      have total : (last.store.content .database).length = newEnd v.content := by
        rw [database, withManifest, slot_write_length (by rw [new_manifest_length]) long, length]
      rw [total, manifests]
      exact .inl (Nat.le_refl _)
  | moved stored slack later => exact slack

theorem resting_opened {store : Store} (formed : WellFormed store) (quiet : Quiet (store.content .database))
    (ran : Host.call ⟨store, db⟩ (.openPair mode scratchSize) = (.ok .none, opened)) :
    ∃ identity v, Resting opened identity v := by
  obtain ⟨identity, content, before, after, admitted⟩ := open_admits formed.pair ran
  obtain ⟨checked, accepted, read⟩ := admitted.read
  refine ⟨identity, ⟨content, after, 1⟩, ⟨admitted.steady, admitted.current, ?_⟩,
    admitted.slack fun _ => formed_slack formed admitted.found admitted.installed accepted read⟩
  rcases admitted.change with ⟨_, rfl, same⟩ | ⟨_, stored, later, _⟩
  · rw [same]
    exact quiet
  · exact quiet_revision (selected_chosen stored.current) (by omega)

end Slack

section Reopening
variable {store : Store} {db db' : Batches} {identity : Bytes} {content : Content} {v : View} {host opened : Host}

/-- Two handles agree on everything but their cursors. -/
structure Agrees (db db' : Batches) : Prop where
  sequence : db'.sequence = db.sequence
  installed : db'.installed = db.installed
  generation : db'.generation = db.generation
  revision : db'.revision = db.revision
  dataEnd : db'.dataEnd = db.dataEnd
  walEnd : db'.walEnd = db.walEnd
  liveBatches : db'.liveBatches = db.liveBatches
  retention : db'.retention = db.retention
  lastTime : db'.lastTime = db.lastTime
  installedTime : db'.installedTime = db.installedTime
  lastSegment : db'.lastSegment = db.lastSegment
  spanStart : db'.spanStart = db.spanStart
  walOrdered : db'.walOrdered = db.walOrdered
  walSpan : db.walEnd ≠ 32 → db'.walFirstTime = db.walFirstTime ∧ db'.walMinimum = db.walMinimum ∧
    db'.walMaximum = db.walMaximum

theorem tracks_agree (tracks : Tracks db content) (tracks' : Tracks db' content) (revision : db'.revision = db.revision)
    (retention : db'.retention = db.retention) : Agrees db db' where
  sequence := tracks'.sequence.trans tracks.sequence.symm
  installed := tracks'.installed.trans tracks.installed.symm
  generation := tracks'.generation.trans tracks.generation.symm
  revision := revision
  dataEnd := tracks'.dataEnd.trans tracks.dataEnd.symm
  walEnd := tracks'.walEnd.trans tracks.walEnd.symm
  liveBatches := tracks'.liveBatches.trans tracks.liveBatches.symm
  retention := retention
  lastTime := tracks'.lastTime.trans tracks.lastTime.symm
  installedTime := tracks'.installedTime.trans tracks.installedTime.symm
  lastSegment := tracks'.lastSegment.trans tracks.lastSegment.symm
  spanStart := tracks'.spanStart.trans tracks.spanStart.symm
  walOrdered := tracks'.walOrdered.trans tracks.walOrdered.symm
  walSpan := fun more => by
    have some : content.pending ≠ [] := fun none => more (tracks.walEnd.trans ((wal_end_fresh content).mpr none))
    obtain ⟨first, least, greatest⟩ := tracks.walSpan some
    obtain ⟨first', least', greatest'⟩ := tracks'.walSpan some
    exact ⟨first'.trans first.symm, least'.trans least.symm, greatest'.trans greatest.symm⟩

/-- Close and open succeed, write nothing and rebuild the handle. -/
def Coherent (host : Host) : Prop :=
  host.call .close = (.ok .none, ⟨host.store, batchesInit⟩) ∧
    ∀ mode scratchSize, mode ≠ .createNew → batchScratch ≤ scratchSize → ∃ opened,
      Host.call ⟨host.store, batchesInit⟩ (.openPair mode scratchSize) = (.ok .none, opened) ∧
        (∀ file, opened.store.content file = host.store.content file) ∧ Agrees host.db opened.db

theorem resting_coherent (resting : Resting host identity v) : Coherent host := by
  have lasting := resting.lasting
  have serving := lasting.steady.serving
  refine ⟨serving_close serving, fun mode scratchSize old large => ?_⟩
  have present : Present host.store := by
    rw [Present, serving.synced.1, serving.synced.2]
    exact ⟨rfl, rfl⟩
  have valid := validate_logged serving.wide serving.installed lasting.found serving.logged (.inl rfl) resting.slack
  have recovered := (on_bind_ok valid : on recovering host.store = _).trans (recover_idle serving.phase)
  have ran := @call_open host.store batchesInit mode scratchSize present ⟨rfl, rfl⟩ large old
  rw [show on recovering host.store = _ from recovered] at ran
  obtain ⟨reopened, same⟩ := reopen_lasting lasting ran
  have serving' := reopened.steady.serving
  exact ⟨_, ran, same, tracks_agree serving.tracks serving'.tracks (serving'.revision.trans serving.revision.symm)
    (serving'.retention.trans serving.retention.symm)⟩

/-- The states of a handle on a well-formed pair, opened where `allowed`: after
open, after a call that left it usable, after another open. -/
inductive Tended (allowed : Bytes → Prop) : Host → Prop where
  | opened {store : Store} {db : Batches} {mode : OpenMode} {scratchSize : Nat} {opened : Host} (formed : WellFormed store)
      (free : allowed (store.content .database))
      (ran : Host.call ⟨store, db⟩ (.openPair mode scratchSize) = (.ok .none, opened)) : Tended allowed opened
  | returned {host last : Host} {act : Act} {result : Except Error Answer} (before : Tended allowed host)
      (step : Step host (.returned act result) last) (ready : batchReady last.db = .ok ()) : Tended allowed last
  | reopened {host opened : Host} {mode : OpenMode} {scratchSize : Nat} (before : Tended allowed host)
      (ran : (host.call .close).2.call (.openPair mode scratchSize) = (.ok .none, opened)) : Tended allowed opened

theorem tended_resting (tended : Tended Quiet host) : ∃ identity v, Resting host identity v := by
  induction tended with
  | opened formed quiet ran => exact resting_opened formed quiet ran
  | @returned host last act result before step ready ih =>
      obtain ⟨identity, v, resting⟩ := ih
      have usable : ¬ Unready last.db := by
        intro unready
        obtain ⟨error, refused⟩ := unready_error unready
        rw [refused] at ready
        cases ready
      by_cases close : act = .close
      · subst close
        exact absurd (close_unready step) usable
      · rcases steady_step resting.lasting.steady close step with ⟨v', steady', changed, answers⟩ | poisoned
        · exact ⟨identity, v', resting_changed resting steady' changed answers⟩
        · exact absurd (.inr poisoned) usable
  | @reopened host opened mode scratchSize before ran ih =>
      obtain ⟨identity, v, resting⟩ := ih
      rw [serving_close resting.lasting.steady.serving] at ran
      obtain ⟨lasting, same⟩ := reopen_lasting resting.lasting ran
      refine ⟨identity, _, lasting, ?_⟩
      rw [same]
      exact resting.slack

/-- Without a dormant slot, close and open change nothing. -/
theorem reopen_coherent (tended : Tended Quiet host) : Coherent host := by
  obtain ⟨identity, v, resting⟩ := tended_resting tended
  exact resting_coherent resting

theorem mixed_formed : WellFormed mixedStore where
  pair := mixed_intact
  revision := fun m found => by
    cases mixed_chosen.symm.trans found
    decide
  orphans := fun m found => by
    cases mixed_chosen.symm.trans found
    decide +kernel

theorem reopen_coherent_mixed : Coherent mixedHost :=
  reopen_coherent (.opened mixed_formed (quiet_revision mixed_chosen (by decide)) mixed_opens)

theorem dormant_formed : WellFormed dormantStore where
  pair := dormant_intact
  revision := fun m found => by
    cases dormant_chosen.symm.trans found
    decide
  orphans := fun m found => by
    cases dormant_chosen.symm.trans found
    decide +kernel

-- The reopened pair is empty, the handle that was closed held a batch.
theorem dormant_incoherent : ¬ ∀ host, Tended (fun _ => True) host → Coherent host := by
  intro all
  have opens : Host.call ⟨dormantStore, batchesInit⟩ (.openPair .openExisting batchScratch) = (.ok .none, dormantHost) := by
    have ran : (Host.call ⟨dormantStore, batchesInit⟩ (.openPair .openExisting batchScratch)).1 = .ok .none := by
      decide +kernel
    rw [dormantHost, ← ran]
  have tended : Tended (fun _ => True) filledHost :=
    .returned (.returned (.opened dormant_formed trivial opens) (call_step _ (.append [⟨7, 5, -1⟩] batchScratch))
      (by decide +kernel)) (call_step _ (.checkpoint batchScratch)) (by decide +kernel)
  obtain ⟨_, reopens⟩ := all filledHost tended
  obtain ⟨opened, ran, _, agrees⟩ := reopens .openExisting batchScratch (by decide) (Nat.le_refl _)
  have sequence : (Host.call ⟨filledHost.store, batchesInit⟩ (.openPair .openExisting batchScratch)).2.db.sequence = 0 := by
    decide +kernel
  have one : filledHost.db.sequence = 1 := by decide +kernel
  rw [ran] at sequence
  exact absurd (sequence.symm.trans (agrees.sequence.trans one)) (by decide)

end Reopening

end Timelite.Coherence
