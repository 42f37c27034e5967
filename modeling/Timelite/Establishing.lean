import Timelite.Asserting

/-!
What a returned handle says about its files, whatever the images were. Only the
sequence number of the WAL may be wrong: open counts its frames past the largest
one, while append and `check_segments` stop there.
-/
namespace Timelite.Establishing
open ByteFile Program Durable Codec CodecLaws Backend BackendLaws Layout FrameLaws HeaderWalk SlotLaws WalLaws Images
  Databases Reader Retention BatchApi System Undisturbed Grammar Opaque Refusing Walking Asserting

/-- The invariant of a handle after open. -/
structure Established (opened : Host) : Prop where
  least : 32 ≤ opened.db.walEnd
  ends : opened.db.walEnd = (opened.store.content .wal).length
  fits : opened.db.walEnd ≤ walCapacity
  low : 160 ≤ opened.db.dataEnd
  capacity : opened.db.dataEnd ≤ databaseCapacity
  inside : opened.db.dataEnd ≤ (opened.store.content .database).length ∨
    opened.db.dataEnd = 160 ∧ (opened.store.content .database).length ≤ 160
  covered : opened.db.installed ≤ opened.db.sequence
  counted : ∃ batches, Holds (opened.store.content .wal) 32 (frames (opened.db.installed + 1) batches) ∧
    opened.db.walEnd = 32 + framesSize batches ∧ opened.db.sequence - opened.db.installed = batches.length
  live : opened.db.liveBatches ≤ opened.db.installed
  span : 1 ≤ opened.db.spanStart ∧ opened.db.spanStart ≤ opened.db.generation + 1

/-- The frames in the WAL count past the largest sequence number. -/
def Overrun (store : Store) : Prop :=
  ∃ m batches, chosen (store.content .database) = some m ∧ uint64Max < m.last + batches.length ∧
    Holds (store.content .wal) 32 (frames (m.last + 1) batches)

section Establishing
variable {store : Store} {v : Validated} {m : Manifests}

theorem slot_last {index size : Nat} {slot : Bytes} (accepted : slotManifest index slot size = some m) :
    m.last ≤ uint64Max := by
  have wide := decode64_lt (slot.drop 24)
  have large : uint64Max = 18446744073709551615 := rfl
  obtain ⟨_, ⟨_, rfl⟩ | ⟨g, d, l, checked, rfl⟩⟩ := slot_cases accepted
  · simp only
    omega
  · have same := (check_fields checked).2.2.1
    simp only
    omega

theorem chosen_last {d : Bytes} (found : chosen d = some m) : m.last ≤ uint64Max := by
  rcases chosen_cases found with current | ⟨rfl, _⟩ | ⟨rfl, _⟩
  · exact slot_last (selected_some current).1.2
  · exact Nat.zero_le _
  · exact Nat.zero_le _

theorem chosen_inside {d : Bytes} (found : chosen d = some m) :
    m.dataEnd ≤ d.length ∨ m.dataEnd = 160 ∧ d.length ≤ 160 := by
  rcases chosen_cases found with current | ⟨rfl, legacy⟩ | ⟨rfl, _, small⟩
  · exact .inl (selected_bounds current).size
  · exact .inr ⟨rfl, by omega⟩
  · exact .inr ⟨rfl, small⟩

/-- The frames that the scan of a WAL without leftovers has counted. -/
theorem accepted_scan (accepted : Accepted store v) (fresh : v.stale = false) :
    ∃ batches, Holds (store.content .wal) 32 (frames (v.manifests.last + 1) batches) ∧
      v.scan.offset = 32 + framesSize batches ∧ v.scan.offset ≤ v.walSize ∧
      v.scan.sequence = (v.manifests.last + batches.length) % 18446744073709551616 := by
  have top := chosen_last accepted.found
  have large : uint64Max = 18446744073709551615 := rfl
  obtain ⟨stale, _, same, scanned⟩ := accepted.scanned
  rw [fresh] at same scanned
  have none : stale = none := by simpa using same.symm
  rw [none] at scanned
  obtain ⟨batches, held, offset, sequence, inside, _⟩ := scan_passed (congrArg Prod.fst scanned) (Nat.le_add_left _ _)
    accepted.least (show v.manifests.last < 18446744073709551616 by omega)
  exact ⟨batches, held, offset, inside, sequence⟩

/-- The survey of the headers bounds the live batches and the span. -/
theorem accepted_survey (accepted : Accepted store v) :
    v.checked.live ≤ v.manifests.last ∧ 1 ≤ v.checked.spanStart ∧ v.checked.spanStart ≤ v.manifests.generation + 1 := by
  obtain ⟨infos, walk, survey⟩ := surveyed (congrArg Prod.fst accepted.checked)
  have live := (passed_live survey.passed).2
  have covered := survey.covered
  obtain ⟨low, high⟩ := passed_span survey.passed (Nat.le_refl _) (Nat.le_refl _)
  have start : (startWalk v.manifests.state.root).live = 0 ∧ (startWalk v.manifests.state.root).sequence = 0 := ⟨rfl, rfl⟩
  rw [start.1, start.2] at live
  rw [survey.live, survey.span]
  rw [survey.count] at high
  exact ⟨by omega, low, by omega⟩

/-- Where the data ends after recovery. -/
theorem recovered_data {finished : Finished} {after : Store} (accepted : Accepted store v)
    (recovered : Recovered store v finished after) : 160 ≤ finished.dataEnd ∧ finished.dataEnd ≤ databaseCapacity ∧
      (finished.dataEnd ≤ (after.content .database).length ∨
        finished.dataEnd = 160 ∧ (after.content .database).length ≤ 160) := by
  have bounds := chosen_bounds accepted.found
  by_cases idle : v.manifests.state.phase = 0
  · obtain ⟨shape, same⟩ := recovered.idle idle
    rw [shape, same]
    exact ⟨Nat.le_trans bounds.1 bounds.2.1, bounds.2.2, chosen_inside accepted.found⟩
  by_cases copying : v.manifests.state.phase = 2
  · obtain ⟨_, ends, _, inside⟩ := recovered.copied copying
    have place := (busy_bounds accepted.found idle).place
    rw [if_pos copying] at place
    have short : (copyBytes (store.content .database) v.manifests).1.length ≤
        v.manifests.dataEnd - v.manifests.state.root := chain_copy_length bounds.2.1
    exact ⟨by omega, by omega, .inl inside⟩
  · obtain ⟨ends, _, _, inside⟩ := recovered.kept idle copying
    rw [ends]
    exact ⟨Nat.le_trans bounds.1 bounds.2.1, bounds.2.2, .inl inside⟩

/-- What recovery leaves of the WAL. -/
theorem recovered_wal {finished : Finished} {after : Store} (accepted : Accepted store v)
    (recovered : Recovered store v finished after) : 32 ≤ v.walOffset ∧ v.walOffset ≤ v.walSize ∧
      (after.content .wal).length = v.walOffset := by
  have least := accepted.least
  have size := accepted.size
  have inside : 32 ≤ v.walOffset ∧ v.walOffset ≤ v.walSize := by
    cases fresh : v.stale with
    | true =>
        rw [Validated.walOffset, fresh, if_pos rfl]
        exact ⟨Nat.le_refl _, least⟩
    | false =>
        obtain ⟨batches, _, offset, within, _⟩ := accepted_scan accepted fresh
        rw [Validated.walOffset, fresh, if_neg (by decide)]
        omega
  refine ⟨inside.1, inside.2, ?_⟩
  rw [recovered.wal]
  split
  · exact resize_length _ _
  · omega

-- Leftover frames do not start behind the installed sequence number.
theorem stale_within (accepted : Accepted store v) (stale : v.stale = true) : ¬ Overrun store := by
  rintro ⟨m, batches, found, beyond, held⟩
  have same : m = v.manifests := Option.some.inj (found.symm.trans accepted.found)
  subst same
  have top := chosen_last accepted.found
  have large : uint64Max = 18446744073709551615 := rfl
  cases batches with
  | nil =>
      rw [List.length_nil] at beyond
      omega
  | cons batch rest =>
      rw [frames_cons, holds_append] at held
      have header := held.1.within (frame_header (v.manifests.last + 1) batch.records) (header_ne _ _)
      rw [Nat.add_zero] at header
      have more := header.length_le (header_ne _ _)
      rw [frame_header_length, ← accepted.size] at more
      have first := @stale_counted store v.walSize v.manifests.last _ _ (by omega) batch.length_pos batch.length_le header
      rw [if_neg (by omega)] at first
      obtain ⟨before, read, some, _⟩ := accepted.scanned
      rw [first] at read
      cases read
      rw [stale] at some
      cases some

-- All frames behind the pair header are counted.
theorem scan_counts (accepted : Accepted store v) (fresh : v.stale = false) {batches others : List Batch}
    (offset : v.scan.offset = 32 + framesSize batches) (within : v.scan.offset ≤ v.walSize)
    (sequence : v.scan.sequence = (v.manifests.last + batches.length) % 18446744073709551616)
    (held : Holds (store.content .wal) 32 (frames (v.manifests.last + 1) others)) : others.length ≤ batches.length := by
  have top := chosen_last accepted.found
  have large : uint64Max = 18446744073709551615 := rfl
  have cap : walCapacity = 67108864 := rfl
  have fits := accepted.most
  have least := accepted.least
  have few := frames_size_ge batches
  have few' := frames_size_ge others
  by_cases none : others = []
  · rw [none]
    exact Nat.zero_le _
  have some_ : frames (v.manifests.last + 1) others ≠ [] := by
    intro empty
    have size := congrArg List.length empty
    rw [frames_length, List.length_nil] at size
    exact none (List.length_eq_zero_iff.mp (by omega))
  have inside := held.length_le some_
  rw [frames_length, ← accepted.size] at inside
  obtain ⟨stale, _, same, scanned⟩ := accepted.scanned
  rw [fresh] at same scanned
  have bare : stale = Option.none := by simpa using same.symm
  rw [bare] at scanned
  obtain ⟨scan', place, counts, passes⟩ := @scan_passes store v.walSize (v.walSize - others.length) false
    (startScan v.manifests.last) others held inside
  have enough : others.length + (v.walSize - others.length) = v.walSize := by omega
  rw [enough] at passes
  have counts' := counts (show v.manifests.last < 18446744073709551616 by omega)
  have start : (startScan v.manifests.last).offset = 32 ∧ (startScan v.manifests.last).sequence = v.manifests.last := ⟨rfl, rfl⟩
  rw [start.1] at place
  rw [start.2] at counts'
  obtain ⟨rest, _, ends, total, inside', _⟩ := scan_passed (congrArg Prod.fst (passes.symm.trans scanned)) (by omega)
    (by omega) (by omega)
  have few'' := frames_size_ge rest
  omega

theorem recovered_established {finished : Finished} {after : Store} (accepted : Accepted store v)
    (recovered : Recovered store v finished after) :
    Established ⟨after, v.handle finished⟩ ↔ ¬ Overrun store := by
  have large : uint64Max = 18446744073709551615 := rfl
  have cap : walCapacity = 67108864 := rfl
  have top := chosen_last accepted.found
  have fits := accepted.most
  have size := accepted.size
  obtain ⟨low, capacity, inside⟩ := recovered_data accepted recovered
  obtain ⟨least, most, ends⟩ := recovered_wal accepted recovered
  obtain ⟨live, span⟩ := accepted_survey accepted
  cases fresh : v.stale with
  | true =>
      have last : v.scan.sequence = v.manifests.last := accepted.ends fresh
      have place : v.walOffset = 32 := by rw [Validated.walOffset, fresh, if_pos rfl]
      refine ⟨fun _ => stale_within accepted fresh, fun _ => ⟨least, ends.symm, Nat.le_trans most fits, low, capacity,
        inside, Nat.le_of_eq last.symm, ⟨[], holds_nil _ _, place, ?_⟩, live, span⟩⟩
      change v.scan.sequence - v.manifests.last = 0
      omega
  | false =>
      obtain ⟨batches, held, offset, within, sequence⟩ := accepted_scan accepted fresh
      have few := frames_size_ge batches
      have place : v.walOffset = v.scan.offset := by rw [Validated.walOffset, fresh, if_neg (by decide)]
      constructor
      · rintro established ⟨m, others, found, beyond, there⟩
        have same : m = v.manifests := Option.some.inj (found.symm.trans accepted.found)
        subst same
        have all := scan_counts accepted fresh offset within sequence there
        have covered : v.manifests.last ≤ v.scan.sequence := established.covered
        omega
      · intro bounded
        have counted : v.manifests.last + batches.length ≤ uint64Max := by
          by_contra beyond
          exact bounded ⟨v.manifests, batches, accepted.found, by omega, held⟩
        have last : v.scan.sequence = v.manifests.last + batches.length := by omega
        refine ⟨least, ends.symm, Nat.le_trans most fits, low, capacity, inside, ?_, ⟨batches, ?_, ?_, ?_⟩, live, span⟩
        · change v.manifests.last ≤ v.scan.sequence
          omega
        · change Holds (after.content .wal) 32 (frames (v.manifests.last + 1) batches)
          rw [recovered.wal]
          split
          · refine held.resize _ ?_
            rw [frames_length]
            omega
          · exact held
        · exact place.trans offset
        · change v.scan.sequence - v.manifests.last = batches.length
          omega

-- Only a closed handle with enough scratch opens two existing files.
theorem opens_only {db : Batches} {mode : OpenMode} {scratchSize : Nat} {opened : Host} (present : Present store)
    (ran : Host.call ⟨store, db⟩ (.openPair mode scratchSize) = (.ok .none, opened)) :
    (db.database = false ∧ db.wal = false) ∧ batchScratch ≤ scratchSize ∧ mode ≠ .createNew := by
  have refused : ∀ error, Prog.run device (batchesOpen db mode scratchSize) store = ((.error error, db), store) → False := by
    intro error failed
    have whole : Prog.run device (Act.perform db (.openPair mode scratchSize)) store = ((.error error, db), store) :=
      Refinement.run_answering failed
    rw [Host.call, whole] at ran
    cases ran
  by_cases held : db.database = true ∨ db.wal = true
  · rw [Opening.open_held held] at refused
    exact absurd rfl (refused _)
  have closed : db.database = false ∧ db.wal = false := by simpa using held
  by_cases small : scratchSize < batchScratch
  · rw [Opening.open_small closed small] at refused
    exact absurd rfl (refused _)
  refine ⟨closed, Nat.le_of_not_lt small, ?_⟩
  rintro rfl
  exact refused _ (Opening.open_created (present_safe present) closed (Nat.le_of_not_lt small)).run_eq

end Establishing

/-- No assertion of open fails, whatever the images. A handle that it returns
stands by its files, exactly when the WAL does not count past the largest sequence number. -/
theorem open_establishes {store : Store} (present : Present store) (db : Batches) (mode : OpenMode) (scratchSize : Nat) :
    Prog.run device (assertedOpen db mode scratchSize) store = Prog.run device (batchesOpen db mode scratchSize) store ∧
    ∀ opened, Host.call ⟨store, db⟩ (.openPair mode scratchSize) = (.ok .none, opened) →
      (Established opened ↔ ¬ Overrun store) := by
  refine ⟨open_asserted db mode scratchSize store, fun opened ran => ?_⟩
  obtain ⟨closed, large, old⟩ := opens_only present ran
  rw [call_open present closed large old] at ran
  have whole := reads_validatePair.on_eq store
  cases read : (on validatePair store).1 with
  | error error =>
      rw [read] at whole
      have failed : on recovering store = (.error error, store) := on_bind_error whole
      rw [failed] at ran
      cases ran
  | ok v =>
      rw [read] at whole
      have front : on recovering store = on (recoverPair v) store := on_bind_ok whole
      rcases recover_cases (accepted read) with ⟨finished, after, through, recovered⟩ | ⟨_, _, failed⟩ |
        ⟨_, _, _, after, failed, _⟩
      · rw [front, through] at ran
        cases ran
        exact recovered_established (accepted read) recovered
      · rw [front, failed] at ran
        cases ran
      · rw [front, failed] at ran
        cases ran

/-- A retained database with nothing left of 2^64 - 1 batches, and a frame after them. -/
def overrunStore : Store where
  database := some (settled (encodePair databaseMagic (List.replicate 16 7) ++
    encodeRetention 2 0 160 uint64Max 5 0 160 0 ++ List.replicate 65 0))
  wal := some (settled (encodePair walMagic (List.replicate 16 7) ++ frames (uint64Max + 1) [soleBatch]))
  entropy := []

-- The sequence number has gone around.
theorem overrun_accepted : ∃ opened : Host,
    Host.call ⟨overrunStore, batchesInit⟩ (.openPair .openExisting batchScratch) = (.ok .none, opened) ∧
      opened.db.sequence = 0 ∧ opened.db.installed = uint64Max := by
  have facts : (Host.call ⟨overrunStore, batchesInit⟩ (.openPair .openExisting batchScratch)).1 = .ok .none ∧
      (Host.call ⟨overrunStore, batchesInit⟩ (.openPair .openExisting batchScratch)).2.db.sequence = 0 ∧
      (Host.call ⟨overrunStore, batchesInit⟩ (.openPair .openExisting batchScratch)).2.db.installed = uint64Max := by
    decide +kernel
  generalize Host.call ⟨overrunStore, batchesInit⟩ (.openPair .openExisting batchScratch) = outcome at facts ⊢
  exact ⟨outcome.2, Prod.ext facts.1 rfl, facts.2⟩

theorem overrun_store : Overrun overrunStore := by
  have found : chosen (overrunStore.content .database) = some ⟨false, 0, 160, uint64Max, 5, 0, true, ⟨2, 160, 0, true⟩⟩ := by
    decide +kernel
  refine ⟨_, [soleBatch], found, by decide, ?_⟩
  unfold Holds
  decide +kernel

theorem open_unestablished : ¬ ∀ (store : Store) (opened : Host), Present store →
    Host.call ⟨store, batchesInit⟩ (.openPair .openExisting batchScratch) = (.ok .none, opened) → Established opened := by
  intro establishes
  obtain ⟨opened, ran, sequence, installed⟩ := overrun_accepted
  have covered := (establishes overrunStore opened ⟨rfl, rfl⟩ ran).covered
  rw [sequence, installed] at covered
  exact absurd covered (by decide)

theorem open_establishes_overrun : ∃ opened : Host,
    Host.call ⟨overrunStore, batchesInit⟩ (.openPair .openExisting batchScratch) = (.ok .none, opened) ∧
      ¬ Established opened := by
  obtain ⟨opened, ran, _⟩ := overrun_accepted
  have present : Present overrunStore := ⟨rfl, rfl⟩
  exact ⟨opened, ran, fun established =>
    ((open_establishes present batchesInit .openExisting batchScratch).2 opened ran).mp established overrun_store⟩

end Timelite.Establishing
