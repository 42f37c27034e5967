import Timelite.Interrupting
import Timelite.Judging

/-!
The summary of the inspector against the handle that open returns: the numbers of
the status, and where recovery cuts the two files.
-/
namespace Timelite.Forecasting
open ByteFile Program Durable Codec CodecLaws Backend BackendLaws Layout Links Spans FrameLaws HeaderWalk SlotLaws WalLaws Contents Images
  Crashes Databases Retaining Reader Retention BatchApi Opening System Refinement Soundness Undisturbed Opaque Refusing Walking
  Inspector Foreseeing Predicting Judging Observing Interrupting

section Lengths
variable {store after : Store} {v : Validated} {state : RetentionState} {count dataEnd last time tail : Nat}

theorem publish_length {root phase : Nat} {next : RetentionState}
    (ran : on (publishRetention state count dataEnd last time tail root phase) store = (.ok next, after))
    (long : 160 ≤ (store.content .database).length) :
    (after.content .database).length = (store.content .database).length := by
  unfold publishRetention at ran
  by_cases full : state.revision = uint64Max
  · rw [if_pos full] at ran
    cases ran
  · rw [if_neg full, on_bind_ok (on_write_exact _ _ _ _), on_bind_ok (on_sync _ _)] at ran
    cases ran
    have width := retention_length (state.revision + 1) count dataEnd last time tail root phase
    have low := write_grows (store.content .database) (32 + 64 * ((state.revision + 1) % 2))
      (encodeRetention (state.revision + 1) count dataEnd last time tail root phase)
    have high := write_bound (store.content .database) (32 + 64 * ((state.revision + 1) % 2))
      (encodeRetention (state.revision + 1) count dataEnd last time tail root phase)
    rw [content_sync, content_update_same, Update.apply]
    omega

/-- A finished retention cuts the database to its data, or to the marker byte. -/
theorem finish_length {finished : Finished}
    (ran : on (finishRetention state count dataEnd last time tail) store = (.ok finished, after))
    (low : 160 ≤ finished.dataEnd) :
    (after.content .database).length = if finished.dataEnd = 160 then 161 else finished.dataEnd := by
  unfold finishRetention at ran
  rw [on_require_bind] at ran
  by_cases room : state.revision ≤ uint64Max - 2
  · rw [if_pos room, on_bind] at ran
    cases backed : on (copyBack state count dataEnd last time tail) store with
    | mk result middle =>
        rw [backed] at ran
        cases result with
        | error error => cases ran
        | ok front =>
            simp only at ran
            rw [on_bind_ok (on_truncate _ _ _), on_bind_ok (on_sync _ _), on_bind] at ran
            have cut : (((middle.update .database (.truncate (if front.dataEnd = 160 then 161 else front.dataEnd))).sync
                .database).content .database).length = if front.dataEnd = 160 then 161 else front.dataEnd := by
              rw [content_sync, content_update_same]
              exact resize_length _ _
            cases published : on (publishRetention front.state count front.dataEnd last time front.tail 160 0)
                ((middle.update .database (.truncate (if front.dataEnd = 160 then 161 else front.dataEnd))).sync .database) with
            | mk result last =>
                rw [published] at ran
                cases result with
                | error error => cases ran
                | ok next =>
                    cases ran
                    rw [publish_length published (by rw [cut]; split <;> omega), cut]
  · rw [if_neg room] at ran
    cases ran

theorem recover_length {handle : Batches} (ran : on (recoverPair v) store = (.ok handle, after))
    (busy : v.manifests.state.phase ≠ 0) (low : 160 ≤ handle.dataEnd) :
    (after.content .database).length = if handle.dataEnd = 160 then 161 else handle.dataEnd := by
  unfold recoverPair at ran
  rw [on_bind_ok (on_provision _ _), on_bind_ok (on_provision _ _), on_bind, finishPair, if_pos busy] at ran
  cases finishes : on (finishRetention v.manifests.state v.manifests.generation v.manifests.dataEnd v.manifests.last
      v.checked.lastTime v.checked.tail) ((store.sync .database).sync .wal) with
  | mk result middle =>
      rw [finishes] at ran
      cases result with
      | error error => cases ran
      | ok finished =>
          simp only at ran
          by_cases more : v.walOffset < v.walSize
          · rw [if_pos more, on_bind_ok (on_truncate _ _ _), on_bind_ok (on_sync _ _)] at ran
            cases ran
            rw [content_sync, content_update_wal]
            exact finish_length finishes low
          · rw [if_neg more] at ran
            cases ran
            exact finish_length finishes low

end Lengths

section Summaries
variable {store after : Store} {v : Validated} {finished : Finished} {m : Manifests} {infos : List SegmentInfo} {last : Walk}

/-- The predicted status of a summary is this one, and each file is cut where the summary
says, or keeps its length where it says nothing. -/
structure Foretells (summary : InspectSummary) (status : Status) (before after : Store) : Prop where
  committed : summary.predictedCommittedBatches = status.committedBatches
  installed : summary.predictedInstalledBatches = status.installedBatches
  pending : summary.predictedPendingBatches = status.pendingBatches
  segments : summary.predictedInstalledSegments = status.installedSegments
  walBytes : summary.predictedWalBytes = status.walBytes
  installedBytes : summary.predictedInstalledBytes = status.installedBytes
  lastTimestamp : summary.predictedLastTimestamp = some status.lastTimestamp
  wal : (after.content .wal).length = summary.recoveryWalTruncateTo.getD (before.content .wal).length
  database : (after.content .database).length =
    summary.recoveryDatabaseTruncateTo.getD (before.content .database).length

-- The end of the data after recovery, as the inspector computes it.
theorem recovered_end (orderly : Orderly (store.content .database) (store.content .wal) v.manifests infos last)
    (recovered : Recovered store v finished after) :
    finished.dataEnd = if v.manifests.state.phase = 2 then 160 + (v.manifests.dataEnd - v.manifests.state.root)
      else v.manifests.dataEnd := by
  by_cases copying : v.manifests.state.phase = 2
  · rw [if_pos copying]
    obtain ⟨through, ends, _⟩ := recovered.copied copying
    have bounds := busy_bounds orderly.found (by omega)
    have whole := @copy_whole (store.content .database) v.manifests.dataEnd (v.manifests.dataEnd - v.manifests.state.root)
      v.manifests.state.root ⟨160, 0, 0, List.replicate 24 0⟩ (Nat.le_refl _) bounds.root through
    rw [ends]
    exact congrArg (160 + ·) whole
  · rw [if_neg copying]
    by_cases idle : v.manifests.state.phase = 0
    · rw [(recovered.idle idle).1]
    · exact (recovered.kept idle copying).1

/-- What the inspector says of a pair that open recovers. -/
theorem summary_foretells (ran : (on validatePair store).1 = .ok v)
    (through : on (recoverPair v) store = (.ok (v.handle finished), after)) (recovered : Recovered store v finished after)
    (orderly : Orderly (store.content .database) (store.content .wal) v.manifests infos last)
    (foresees : Foresees (store.content .database) v.manifests last v.stale v.scan
      (inspectStages (store.content .database) (store.content .wal)))
    (live : v.checked.live = last.live) (time : v.checked.lastTime = floorOf (store.content .database) v.manifests last) :
    ∃ status, batchesGetStatus (v.handle finished) = .ok status ∧
      Foretells (inspectSummary (store.content .database) (store.content .wal)
        (inspectStages (store.content .database) (store.content .wal))) status store after := by
  have accepted := accepted ran
  obtain ⟨least, most, cut⟩ := Establishing.recovered_wal accepted recovered
  obtain ⟨low, _⟩ := Establishing.recovered_data accepted recovered
  have ends := recovered_end orderly recovered
  have length := fun busy => recover_length through busy low
  generalize inspectStages (store.content .database) (store.content .wal) = state at foresees ⊢
  obtain ⟨slot, shape⟩ := foresees.shape
  have stale : state.stale = v.stale := (congrArg InspectState.stale shape :)
  have sequence : state.sequence = v.scan.sequence := (congrArg InspectState.sequence shape :)
  have walEnd : state.walEnd = v.scan.offset := (congrArg InspectState.walEnd shape :)
  have alive : state.live = last.live := (congrArg InspectState.live shape :)
  have generation : state.generation = v.manifests.generation := (congrArg InspectState.generation shape :)
  have installed : state.installed = v.manifests.last := (congrArg InspectState.installed shape :)
  have dataEnd : state.dataEnd = v.manifests.dataEnd := (congrArg InspectState.dataEnd shape :)
  have phase : state.phase = v.manifests.state.phase := (congrArg InspectState.phase shape :)
  have root : state.root = v.manifests.state.root := (congrArg InspectState.root shape :)
  have pending : (if state.stale then 0 else sub64 state.sequence state.installed) = sub64 v.scan.sequence v.manifests.last := by
    rw [stale, sequence, installed]
    cases leftover : v.stale with
    | false => exact if_neg Bool.false_ne_true
    | true =>
        rw [accepted.ends leftover, if_pos rfl, sub64, Nat.add_sub_cancel_left, Nat.mod_self]
  have wal : (if state.stale then 32 else state.walEnd) = v.walOffset := by
    rw [stale, walEnd, Validated.walOffset]
  have data : (if state.phase = 2 then dataStart + (state.dataEnd - state.root) else state.dataEnd) = finished.dataEnd := by
    rw [phase, dataEnd, root, ends, dataStart]
  have answer : batchesGetStatus (v.handle finished) = .ok
      ⟨v.checked.live + sub64 v.scan.sequence v.manifests.last, v.checked.live, sub64 v.scan.sequence v.manifests.last,
        v.manifests.generation, v.walOffset, finished.dataEnd - dataStart,
        if v.stale = false ∧ v.scan.sequence > v.manifests.last then v.scan.last else v.checked.lastTime⟩ := rfl
  refine ⟨_, answer, ?_, ?_, ?_, ?_, ?_, ?_, ?_, ?_, ?_⟩
  · change state.live + (if state.stale then 0 else sub64 state.sequence state.installed) = _
    rw [pending, alive, ← live]
  · exact alive.trans live.symm
  · exact pending
  · exact generation
  · exact wal
  · exact congrArg (· - dataStart) data
  · change (if state.floorKnown then some state.floorTime else none) = some _
    rw [foresees.known, if_pos rfl, foresees.time, ← time]
  · change _ = (if state.stale then some 32 else if state.walEnd < (store.content .wal).length then some state.walEnd
      else none).getD _
    rw [cut, ← wal]
    cases leftover : state.stale with
    | true => rfl
    | false =>
        rw [if_neg Bool.false_ne_true, if_neg Bool.false_ne_true]
        by_cases more : state.walEnd < (store.content .wal).length
        · rw [if_pos more]
          rfl
        · rw [if_neg more]
          rw [leftover, if_neg Bool.false_ne_true] at wal
          have size := accepted.size
          have whole : state.walEnd = (store.content .wal).length := by omega
          exact whole
  · change _ = (if state.phase ≠ 0 then some (if (if state.phase = 2 then dataStart + (state.dataEnd - state.root)
      else state.dataEnd) = dataStart then 161 else (if state.phase = 2 then dataStart + (state.dataEnd - state.root)
      else state.dataEnd)) else none).getD _
    rw [data]
    by_cases busy : state.phase ≠ 0
    · rw [if_pos busy]
      exact length (phase ▸ busy)
    · rw [if_neg busy, (recovered.idle (by omega)).2]
      rfl

end Summaries

section Contents
variable {d identity : Bytes} {content : Content} {m : Manifests} {infos : List SegmentInfo} {last : Walk} {segment : Segment}

-- The frames of a body that a segment has written.
theorem body_run_held {offset : Nat} (held : Holds d (offset + segment.headerSize) (frames segment.first segment.batches))
    (previous skip time : Nat) : Counted d offset (segment.info previous skip) ∧
      lastOf (bodyRun d offset (segment.info previous skip)).1 time = lastTimeOf segment.batches time := by
  have small := segment.bounded
  have some := segment.length_pos
  have records := @Admitting.frame_run_records d (offset + segment.headerSize + segment.body) segment.body
    (offset + segment.headerSize) segment.first segment.batches held rfl (Nat.le_refl _) small
  rw [Nat.mod_eq_of_lt (by omega)] at records
  have counts := congrArg List.length records
  rw [List.length_map, List.length_map] at counts
  refine ⟨?_, ?_⟩
  · have count := segment.count_eq
    change (bodyRun d offset (segment.info previous skip)).1.length = segment.last - segment.first + 1
    rw [count]
    exact counts
  · have scanned := @last_frame_agrees (offset + segment.headerSize + segment.body) segment.body (offset + segment.headerSize)
      segment.first (image d) time
    have timed := congrArg Prod.fst (@last_frame_time (image d) (offset + segment.headerSize + segment.body) segment.body
      (offset + segment.headerSize) segment.first time segment.batches held rfl (Nat.le_refl _) small)
    rw [timed] at scanned
    by_cases whole : (frameRun ((image d).content .database) (offset + segment.headerSize + segment.body) segment.body
        (offset + segment.headerSize) segment.first).2.isSome = true
    · rw [if_pos whole] at scanned
      exact (Except.ok.inj scanned).symm
    · rw [if_neg whole] at scanned
      cases scanned

theorem truthful_final (truthful : segment.Truthful) (ordered : segment.ordered = true) (time : Nat) :
    segment.maximum = lastTimeOf segment.batches time := by
  have wide : segment.wide = true := by
    simp only [Segment.ordered, Segment.wide, decide_eq_true_eq] at ordered ⊢
    rw [ordered]
    decide
  obtain ⟨_, inside, between, sorted⟩ := truthful wide
  have rises := rising_iff.mpr (sorted.mp ordered)
  have some : segment.times ≠ [] := fun none => by
    rw [none] at inside
    cases inside
  have final : finalOf segment.times = lastTimeOf segment.batches time := final_times segment.batches time segment.occupied
  have upper := rising_le_final rises inside
  have lower := (between _ (final_mem some)).2
  omega

theorem installed_walked (installed : Installed d identity content m) (count : infos.length = m.generation)
    (passed : Passed d m.dataEnd m.state.enabled (startWalk m.state.root) 1 infos last) :
    Walked m.state.root content.segments last := by
  have chained : SegmentLaws.Chained (image d) m.state.root m.dataEnd ([] ++ content.segments) :=
    @Installed.chained (image d) identity content m installed
  obtain ⟨walk, ran, walked⟩ := walk_segments chained m.state.enabled
    ⟨content.increasing, fun off => (installed.gapless off).1⟩ (walked_start m.state.root)
  have again := @walk_of_passed m.dataEnd 1 m.state.enabled (startWalk m.state.root) last infos (image d) passed
  have same : (on (walkSegments m.dataEnd m.state.enabled content.segments.length 1 (startWalk m.state.root)) (image d)).1 =
      .ok walk := congrArg Prod.fst ran
  rw [count, installed.generation, same] at again
  cases again
  exact walked

/-- On an honest content both programs agree about the end of the segments. -/
theorem installed_ends (installed : Installed d identity content m) (honest : Honest content) (count : infos.length = m.generation)
    (passed : Passed d m.dataEnd m.state.enabled (startWalk m.state.root) 1 infos last) :
    ¬ Miscounted d m last ∧ endTime d m last = floorOf d m last := by
  have walked := installed_walked installed count passed
  have final := walked.segment
  have place := walked.previous
  rcases List.eq_nil_or_concat content.segments with none | ⟨front, segment, shape⟩
  · rw [none] at final
    refine ⟨?_, by rw [endTime, floorOf, final]; rfl⟩
    rintro ⟨_, segment, found, _⟩
    rw [final] at found
    cases found
  · rw [List.concat_eq_append] at shape
    have chained : SegmentLaws.Chained (image d) m.state.root m.dataEnd (front ++ [segment]) := by
      rw [← shape]
      exact @Installed.chained (image d) identity content m installed
    have ends : (front ++ [segment]).getLast? = some segment := by simp
    have length : (front ++ [segment]).length - 1 = front.length := by simp
    have previous : last.previous = m.state.root + extent front := by
      rw [place, shape]
      simp
    rw [shape, lastInfo, ends, Option.map_some, length] at final
    obtain ⟨counted, time⟩ := @body_run_held d segment last.previous (by rw [previous]; exact chained.frames_held)
      (linkTo m.state.root (front ++ [segment]) front.length)
      (linkTo m.state.root (front ++ [segment]) (front.length + 1 - lowBit (front.length + 1))) m.lastTime
    refine ⟨?_, ?_⟩
    · rintro ⟨_, other, found, bad⟩
      rw [final] at found
      cases found
      exact bad counted
    · rw [endTime, floorOf, final]
      simp only
      by_cases timed : m.hasTime = true
      · rw [if_pos timed, if_pos timed]
      · rw [if_neg timed, if_neg timed]
        by_cases ordered : segment.ordered = true
        · have maximum := truthful_final (honest segment (by rw [shape]; simp)) ordered m.lastTime
          rw [if_pos (show (SegmentLaws.infoAt _ _ _ segment).ordered = true from ordered)]
          exact maximum.trans time.symm
        · exact if_neg (show ¬ (SegmentLaws.infoAt _ _ _ segment).ordered = true from ordered)

end Contents

section Opened
variable {store : Store} {db : Batches} {mode : OpenMode} {scratchSize : Nat} {opened : Host}

/-- A pair that passes validation passes the checks that both programs make. -/
theorem validated_orderly {v : Validated} (ran : (on validatePair store).1 = .ok v) :
    ∃ infos last, Orderly (store.content .database) (store.content .wal) v.manifests infos last := by
  by_contra none_
  obtain ⟨error, stage, refused, _⟩ := disorderly_refused fun m infos last orderly =>
    none_ ⟨infos, last, by rw [Option.some.inj ((accepted ran).found.symm.trans orderly.found)]; exact orderly⟩
  rw [ran] at refused
  cases refused

/-- Verify foretells the status after open, if the final segment is read alike. -/
theorem open_foretold (present : Present store)
    (ends : ∀ m infos last, Orderly (store.content .database) (store.content .wal) m infos last →
      ¬ Miscounted (store.content .database) m last ∧ endTime (store.content .database) m last = floorOf (store.content .database) m last)
    (ran : Host.call ⟨store, db⟩ (.openPair mode scratchSize) = (.ok .none, opened)) :
    ∃ summary status, inspectVerify (store.content .database) (store.content .wal) = .ok summary ∧
      batchesGetStatus opened.db = .ok status ∧ Foretells summary status store opened.store := by
  obtain ⟨closed, large, old⟩ := Establishing.opens_only present ran
  rw [call_open present closed large old] at ran
  have whole := reads_validatePair.on_eq store
  cases read : (on validatePair store).1 with
  | error error =>
      rw [read] at whole
      have failed : on recovering store = (.error error, store) := on_bind_error whole
      rw [failed] at ran
      cases ran
  | ok v =>
      rw [read] at whole
      have front : on recovering store = on (recoverPair v) store := on_bind_ok whole
      rcases recover_cases (accepted read) with ⟨finished, after, through, recovered⟩ | ⟨_, _, failed⟩ | ⟨_, _, _, after, failed, _⟩
      · rw [front, through] at ran
        cases ran
        obtain ⟨infos, last, orderly⟩ := validated_orderly read
        obtain ⟨counted, time⟩ := ends v.manifests infos last orderly
        obtain ⟨refuses, accepts⟩ := orderly_validate orderly
        by_cases unread : Unread (store.content .database) v.manifests last
        · have refused := refuses unread
          rw [read] at refused
          cases refused
        obtain ⟨stale, scan, size, part, again⟩ := accepts unread
        rw [read] at again
        have same := Except.ok.inj again
        have foresees := (orderly_inspect orderly).2 counted stale scan size part
        have stale' : v.stale = stale := congrArg Validated.stale same
        have scan' : v.scan = scan := congrArg Validated.scan same
        have checked := congrArg Validated.checked same
        rw [← stale', ← scan'] at foresees
        obtain ⟨status, answer, foretells⟩ := summary_foretells read through recovered orderly foresees
          ((congrArg Checked.live checked :)) ((congrArg Checked.lastTime checked :).trans time)
        refine ⟨_, status, ?_, answer, foretells⟩
        rw [inspectVerify]
        simp only [foresees.fresh]
      · rw [front, failed] at ran
        cases ran
      · rw [front, failed] at ran
        cases ran

/-- Verify foretells what open makes of images of an honest content. -/
theorem safe_foretold {identity : Bytes} (safe : Safe (Leaves Honest identity) store)
    (ran : Host.call ⟨store, db⟩ (.openPair mode scratchSize) = (.ok .none, opened)) :
    ∃ summary status, inspectVerify (store.content .database) (store.content .wal) = .ok summary ∧
      batchesGetStatus opened.db = .ok status ∧ Foretells summary status store opened.store := by
  obtain ⟨content, honest, ⟨m, stored, _⟩, _⟩ := safe.content
  refine open_foretold ⟨safe.database, safe.wal⟩ (fun m' infos last orderly => ?_) ran
  have same : m' = m := Option.some.inj (orderly.found.symm.trans (selected_chosen stored.current))
  subst same
  exact installed_ends stored.installed honest orderly.count orderly.passed

end Opened

/-- What a stop at any point of any call leaves, of a run since a creation. -/
theorem stopped_safe {start host : Host} {events : List Event} {act : Act} {store : Store} (created : Created start)
    (run : Run start events host) (execution : Exec device (act.perform host.db) host.store none store) :
    ∃ identity, Safe (Leaves Honest identity) store := by
  obtain ⟨identity, sound⟩ := reachable_sound created run
  exact ⟨identity, interrupted_safe sound (fun _ honest => honest) (fun v holds _ content' effect => honest_effect holds effect) execution⟩

/-- Whatever a crash leaves of the files of a database, at any point of any call and
of any run since its creation: if open recovers it, verify has foretold the status. -/
theorem recovery_foretold {start host : Host} {events : List Event} {act : Act} {store : Store} {d w : Bytes} {db : Batches}
    {mode : OpenMode} {scratchSize : Nat} {opened : Host} (created : Created start) (run : Run start events host)
    (execution : Exec device (act.perform host.db) host.store none store) (survives : Surviving store d w)
    (ran : Host.call ⟨booted store d w, db⟩ (.openPair mode scratchSize) = (.ok .none, opened)) :
    ∃ summary status, inspectVerify d w = .ok summary ∧ batchesGetStatus opened.db = .ok status ∧
      Foretells summary status (booted store d w) opened.store := by
  obtain ⟨identity, safe⟩ := stopped_safe created run execution
  exact @safe_foretold (booted store d w) db mode scratchSize opened identity (booted_safe safe survives) ran

/-- The machine stopped while an expiration copies the remaining segment back. -/
def expiring : Store := (Act.perform layered.db (.expireBefore 100 batchScratch)).after device 18 layered.store

/-- The open after that. -/
def recovering : Except Error Answer × Host :=
  Host.call ⟨booted expiring (expiring.content .database) (expiring.content .wal), batchesInit⟩
    (.openPair .openExisting batchScratch)

/-- Recovery cuts the database from 604 to 308 bytes, as verify says. -/
theorem recovery_foretold_expiring : (expiring.content .database).length = 604 ∧ ∃ summary status,
    inspectVerify (expiring.content .database) (expiring.content .wal) = .ok summary ∧
      summary.recoveryDatabaseTruncateTo = some 308 ∧ batchesGetStatus recovering.2.db = .ok status ∧
      Foretells summary status (booted expiring (expiring.content .database) (expiring.content .wal)) recovering.2.store := by
  obtain ⟨start, events, created, run⟩ := layered_reached
  have execution : Exec device (Act.perform layered.db (.expireBefore 100 batchScratch)) layered.store none expiring :=
    exec_after device 18 _ _
  have ran : recovering.1 = .ok .none := by decide +kernel
  have opens : recovering = (.ok .none, recovering.2) := Prod.ext ran rfl
  have named : (inspectVerify (expiring.content .database) (expiring.content .wal)).toOption.map
      (·.recoveryDatabaseTruncateTo) = some (some 308) := by decide +kernel
  have survives : Surviving expiring (expiring.content .database) (expiring.content .wal) :=
    ⟨survives_content _, survives_content _⟩
  obtain ⟨summary, status, verified, known, foretells⟩ := recovery_foretold created run execution survives opens
  rw [verified] at named
  exact ⟨by decide +kernel, summary, status, verified, Option.some.inj named, known, foretells⟩

/-- After a crash or a restart, at any point of any call and of any run since a creation:
if open succeeds, get_status answers what verify has predicted of the same files. -/
theorem status_predicted {start host next opened : Host} {events : List Event} {act : Act} {store : Store} {mode : OpenMode}
    {scratchSize : Nat} (created : Created start) (run : Run start events host)
    (execution : Exec device (act.perform host.db) host.store none store) (resumed : Resumed store next)
    (ran : next.call (.openPair mode scratchSize) = (.ok .none, opened)) :
    ∃ summary status, inspectVerify (next.store.content .database) (next.store.content .wal) = .ok summary ∧
      (opened.call .getStatus).1 = .ok (.status status) ∧ Foretells summary status next.store opened.store := by
  obtain ⟨identity, safe⟩ := stopped_safe created run execution
  obtain ⟨summary, status, verified, known, foretells⟩ := safe_foretold (resumed_safe safe resumed).1 ran
  refine ⟨summary, status, verified, ?_, foretells⟩
  rw [Host.call, Act.perform, known]
  rfl

/-- The machine stopped before the first part of the frame was synced. -/
def appending : Store := (Act.perform fresh.db (.append [⟨1, 5, 7⟩] batchScratch)).after device 1 fresh.store

/-- 50 of its 52 bytes are left. -/
def cutShort : Host := ⟨booted appending (appending.content .database) ((appending.content .wal).take 82), batchesInit⟩

theorem cut_short_resumed : Resumed appending cutShort := by
  have pending : (appending.disk .wal).pending = [.write 32 (frameBody 1 [⟨1, 5, 7⟩])] := by decide +kernel
  have torn : Survives (tearing .wal) (appending.disk .wal)
      (writeAt (appending.disk .wal).durable 32 ((frameBody 1 [⟨1, 5, 7⟩]).take 50)) :=
    .torn [] [] 32 _ 50 pending trivial
  have image : writeAt (appending.disk .wal).durable 32 ((frameBody 1 [⟨1, 5, 7⟩]).take 50) = (appending.content .wal).take 82 := by
    decide +kernel
  exact .crashed ⟨survives_content _, image ▸ torn⟩

-- Recovery cuts the incomplete frame off, and the status counts no batch.
theorem status_predicted_cut : ∃ summary status,
    inspectVerify (cutShort.store.content .database) (cutShort.store.content .wal) = .ok summary ∧
      summary.recoveryWalTruncateTo = some 32 ∧
      ((cutShort.call (.openPair .openExisting batchScratch)).2.call .getStatus).1 = .ok (.status status) ∧
      Foretells summary status cutShort.store (cutShort.call (.openPair .openExisting batchScratch)).2.store := by
  have opens : cutShort.call (.openPair .openExisting batchScratch) =
      (.ok .none, (cutShort.call (.openPair .openExisting batchScratch)).2) := Prod.ext (by decide +kernel) rfl
  have named : (inspectVerify (cutShort.store.content .database) (cutShort.store.content .wal)).toOption.map
      (·.recoveryWalTruncateTo) = some (some 32) := by decide +kernel
  obtain ⟨summary, status, verified, known, foretells⟩ :=
    status_predicted fresh_created (.start fresh) (exec_after device 1 _ _) cut_short_resumed opens
  rw [verified] at named
  exact ⟨summary, status, verified, Option.some.inj named, known, foretells⟩

end Timelite.Forecasting
