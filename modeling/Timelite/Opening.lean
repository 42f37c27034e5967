import Timelite.Expiring

/-!
Open: from images that hold a content, validation, the finished retention and
the cut WAL lead to a settled handle of that content; disturbed, the images keep
holding it. A WAL with a few bytes behind its frames is refused unchanged.
-/
namespace Timelite.Opening
open ByteFile Program Durable Codec CodecLaws Backend BackendLaws Layout HeaderWalk SegmentLaws SlotLaws WalLaws
  Contents Images Crashes Databases Calls Checkpointing Retaining Cursor Reader Retention BatchApi Spans

/-- The WAL replays the pending batches, or nothing. A clean one holds no frame
of which only a part of the header was written. -/
inductive Replays (clean : Prop) (identity : Bytes) (content : Content) (w : Bytes) : Prop where
  | logged (tail : Bytes) (logged : Logged w identity content tail) (readable : clean → Readable tail) :
      Replays clean identity content w
  | leftover (first : Nat) (batches : List Batch) (leftover : Leftover w identity content first batches) :
      Replays clean identity content w

theorem Replays.weaken {clean clean' : Prop} {identity w : Bytes} {content : Content}
    (replays : Replays clean identity content w) (less : clean' → clean) : Replays clean' identity content w := by
  cases replays with
  | logged tail logged readable => exact .logged tail logged fun needed => readable (less needed)
  | leftover first batches leftover => exact .leftover first batches leftover

-- Open can decide about every clean WAL.
theorem replays_cases {identity w : Bytes} {content : Content} (replays : Replays False identity content w) :
    Replays True identity content w ∨ ∃ tail, Logged w identity content tail ∧ ¬ Readable tail := by
  cases replays with
  | logged tail logged readable =>
      by_cases clean : Readable tail
      · exact .inl (.logged tail logged fun _ => clean)
      · exact .inr ⟨tail, logged, clean⟩
  | leftover first batches leftover => exact .inl (.leftover first batches leftover)

/-- The images a crash leaves hold the content. -/
def Recovers (clean : Prop) (identity : Bytes) (content : Content) (d w : Bytes) : Prop :=
  Held identity content d ∧ Replays clean identity content w

section Handles
variable {store : Store} {identity tail : Bytes} {content : Content} {m : Manifests} {size first : Nat}
  {batches : List Batch} {finished : Finished}

/-- What validation has read of a clean pair. -/
inductive Read (content : Content) (m : Manifests) (size : Nat) : Validated → Prop where
  | logged : Read content m size
      ⟨m, checkedOf m.state.root content, false, scanned content.installed content.pending, size⟩
  | leftover (first : Nat) (batches : List Batch) (ends : first + batches.length = content.installed + 1)
      (counted : 0 < first) (none : content.pending = []) :
      Read content m size ⟨m, checkedOf m.state.root content, true, scanned (first - 1) batches, size⟩

theorem read_wal_offset {v : Validated} (read : Read content m size v) : v.walOffset = content.walEnd := by
  cases read with
  | logged => rfl
  | leftover first batches ends counted none =>
      rw [Content.walEnd, none]
      rfl

theorem read_manifests {v : Validated} (read : Read content m size v) : v.manifests = m := by
  cases read <;> rfl

theorem read_checked {v : Validated} (read : Read content m size v) :
    v.checked = checkedOf m.state.root content := by
  cases read <;> rfl

theorem read_wal_size {v : Validated} (read : Read content m size v) : v.walSize = size := by
  cases read <;> rfl

theorem handle_tracks {v : Validated} (read : Read content m size v) (last : m.last = content.installed)
    (generation : m.generation = content.segments.length) (dataEnd : finished.dataEnd = content.dataEnd)
    (lastSegment : finished.tail = linkTo 160 content.segments content.segments.length) :
    Tracks (v.handle finished) content where
  database := rfl
  wal := rfl
  walEnd := read_wal_offset read
  sequence := by
    cases read with
    | logged => rfl
    | leftover first batches ends counted none =>
        simp only [Validated.handle, resetCursor, scanned, Content.high, none, List.length_nil]
        omega
  dataEnd := dataEnd
  installed := by
    simp only [Validated.handle, resetCursor, read_manifests read, last]
  generation := by
    simp only [Validated.handle, resetCursor, read_manifests read, generation]
  liveBatches := by
    simp only [Validated.handle, resetCursor, read_checked read, checkedOf]
  lastTime := by
    cases read with
    | logged =>
        simp only [Validated.handle, resetCursor, scanned, last, checkedOf, true_and, Content.floor]
        split
        · rename_i more
          refine final_times content.pending content.installedTime ?_
          rintro none
          rw [none, List.length_nil] at more
          omega
        · rename_i same
          have none : content.pending = [] := List.length_eq_zero_iff.mp (by omega)
          rw [none, last_time_nil]
    | leftover first batches ends counted none =>
        simp only [Validated.handle, resetCursor, checkedOf, reduceCtorEq, false_and, if_false, Content.floor, none,
          last_time_nil]
  installedTime := by
    simp only [Validated.handle, resetCursor, read_checked read, checkedOf]
  lastSegment := lastSegment
  spanStart := by
    simp only [Validated.handle, resetCursor, read_checked read, checkedOf]
  walOrdered := by
    cases read with
    | logged => rfl
    | leftover first batches ends counted none =>
        simp only [Validated.handle, resetCursor, none, if_true, times_nil, rising_nil]
  walSpan := fun some => by
    cases read with
    | logged => exact ⟨rfl, rfl, rfl⟩
    | leftover first batches ends counted none => exact absurd none some

end Handles

section Validation
variable {store : Store} {identity : Bytes} {content : Content} {m : Manifests}

theorem validate_replays (wide : identity.length = 16)
    (installed : Installed (store.content .database) identity content m)
    (found : chosen (store.content .database) = some m) (slack : Slack (store.content .database) content m)
    (replays : Replays True identity content (store.content .wal)) :
    ∃ v, on validatePair store = (.ok v, store) ∧ Read content m (store.content .wal).length v := by
  cases replays with
  | logged tail logged readable =>
      exact ⟨_, validate_logged wide installed found logged (readable trivial) slack, .logged⟩
  | leftover first batches leftover =>
      exact ⟨_, validate_leftover wide installed found leftover slack,
        .leftover first batches leftover.ends leftover.counted leftover.none⟩

-- Where the WAL is cut, only whole frames are left.
theorem replays_cut (wide : identity.length = 16) (replays : Replays True identity content (store.content .wal)) :
    content.walEnd ≤ (store.content .wal).length ∧
      Logged (resize (store.content .wal) content.walEnd) identity content [] := by
  cases replays with
  | logged tail logged readable =>
      have length := logged.length wide
      have bytes := logged.bytes
      have fits := logged.fits
      have whole : (encodePair walMagic identity ++ frames (content.installed + 1) content.pending).length =
          content.walEnd := by
        simp only [List.length_append, Images.wal_length wide, frames_length, Content.walEnd]
      have cut : resize (store.content .wal) content.walEnd =
          encodePair walMagic identity ++ frames (content.installed + 1) content.pending := by
        rw [bytes, ← whole]
        exact resize_append _ _
      exact ⟨by omega, by rw [cut, List.append_nil], .none, fun some => absurd rfl some,
        by rw [resize_length]; omega⟩
  | leftover first batches leftover =>
      have length := leftover.length wide
      have bytes := leftover.bytes
      have fits := leftover.fits
      have place : content.walEnd = 32 := by
        rw [Content.walEnd, leftover.none]
        rfl
      have cut : resize (store.content .wal) 32 = encodePair walMagic identity := by
        rw [bytes, ← Images.wal_length wide]
        exact resize_append _ _
      refine ⟨by omega, ?_, .none, fun some => absurd rfl some, by rw [resize_length, place]; decide⟩
      rw [place, cut, leftover.none]
      simp

end Validation

section Recovery
variable {strict : Prop} {P : Bytes → Bytes → Prop} {store : Store} {identity : Bytes} {content : Content}
  {m : Manifests}

/-- Finishing an interrupted retention, if there is one. -/
theorem finish_pair {v : Validated} {size : Nat} (read : Read content m size v) (synced : Synced store)
    (wide : identity.length = 16) (installed : Installed (store.content .database) identity content m)
    (found : chosen (store.content .database) = some m)
    (able : m.state.phase ≠ 0 → m.state.revision + 2 ≤ uint64Max)
    (bound : m.state.phase ≠ 0 → strict → m.state.revision + 5 ≤ uint64Max + m.state.phase)
    (guarded : m.state.phase ≠ 0 → strict → Guarded (store.content .database) m)
    (here : P (store.content .database) (store.content .wal))
    (weaken : m.state.phase ≠ 0 → ∀ d, (strict → Finishing identity content d) → P d (store.content .wal)) :
    ∃ after m', Runs (Safe P) (finishPair v) store
        ⟨content.dataEnd, linkTo 160 content.segments content.segments.length, m'.state⟩ after ∧
      Synced after ∧ after.content .wal = store.content .wal ∧ m'.state.phase = 0 ∧ m'.state.root = 160 ∧
      m'.legacy = m.legacy ∧ m'.generation = m.generation ∧ m'.last = m.last ∧
      Installed (after.content .database) identity content m' ∧ chosen (after.content .database) = some m' ∧
      ((m.state.phase = 0 → Slack (store.content .database) content m) → Slack (after.content .database) content m') ∧
      (m.state.phase = 0 ∧ m' = m ∧ after.content .database = store.content .database ∨
        m.state.phase ≠ 0 ∧ Stored (after.content .database) identity content m' ∧
          m.state.revision < m'.state.revision ∧ m'.state.revision ≤ m.state.revision + 2 ∧
          (strict → Finishing identity content (after.content .database))) := by
  have safe := safe_synced synced here
  unfold finishPair
  rw [read_manifests read, read_checked read]
  by_cases idle : m.state.phase = 0
  · have root : m.state.root = 160 := by
      rcases chosen_cases found with current | ⟨bare, _⟩ | ⟨bare, _⟩
      · have place := (selected_bounds current).place
        rw [if_neg (by omega)] at place
        exact place
      · rw [bare]
        rfl
      · rw [bare]
        rfl
    have extentEq := installed.extent
    rw [root] at extentEq
    refine ⟨store, m, ?_, synced, rfl, idle, root, rfl, rfl, rfl, installed, found, fun slack => slack idle,
      .inl ⟨idle, rfl, rfl⟩⟩
    simp only [idle, ne_eq, not_true_eq_false, if_false, checkedOf, root, extentEq]
    exact runs_pure safe _
  · have current : selected (store.content .database) = some m := by
      rcases chosen_cases found with current | ⟨bare, _⟩ | ⟨bare, _⟩
      · exact current
      · rw [bare] at idle
        exact absurd rfl idle
      · rw [bare] at idle
        exact absurd rfl idle
    have kept : Kept strict (store.content .database) identity content m :=
      kept_selected current installed (guarded idle)
    obtain ⟨after, revision, runs, synced', wal, stored, length, low, high, finished⟩ :=
      finish_runs synced wide kept idle (able idle) (bound idle) (weaken idle)
    refine ⟨after, retained content revision 160 0, ?_, synced', wal, rfl, rfl,
      (selected_bounds current).modern.symm, installed.generation.symm, installed.last.symm, stored.installed,
      selected_chosen stored.current, fun _ => slack_cut length, .inr ⟨idle, stored, low, high, finished⟩⟩
    simp only [idle, ne_eq, not_false_eq_true, if_true, checkedOf]
    exact runs

/-- Everything open does to an existing pair once it has validated it. -/
theorem recover_read {v : Validated} (safe : Safe P store) (wide : identity.length = 16)
    (installed : Installed (store.content .database) identity content m)
    (found : chosen (store.content .database) = some m)
    (able : m.state.phase ≠ 0 → m.state.revision + 2 ≤ uint64Max)
    (bound : m.state.phase ≠ 0 → strict → m.state.revision + 5 ≤ uint64Max + m.state.phase)
    (guarded : m.state.phase ≠ 0 → strict → Guarded (store.content .database) m)
    (read : Read content m (store.content .wal).length v) (long : content.walEnd ≤ (store.content .wal).length)
    (cut : Logged (resize (store.content .wal) content.walEnd) identity content [])
    (weaken : ∀ d w, (d = store.content .database ∨ m.state.phase ≠ 0 ∧ (strict → Finishing identity content d)) →
      (w = store.content .wal ∨ w = resize (store.content .wal) content.walEnd) → P d w) :
    ∃ after db m', Runs (Safe P) (recoverPair v) store db after ∧
      Serving after db identity content m' ∧ chosen (after.content .database) = some m' ∧
      ((m.state.phase = 0 → Slack (store.content .database) content m) → Slack (after.content .database) content m') ∧
      Delivers db content 1 ∧ after.content .wal = resize (store.content .wal) content.walEnd ∧
      (m.state.phase = 0 ∧ m' = m ∧ after.content .database = store.content .database ∨
        m.state.phase ≠ 0 ∧ Stored (after.content .database) identity content m' ∧
          m.state.revision < m'.state.revision ∧ m'.state.revision ≤ m.state.revision + 2 ∧
          (strict → Finishing identity content (after.content .database))) := by
  have first := runs_provision .database safe (safe.sync .database)
  have second := runs_provision .wal first.safe_after (first.safe_after.sync .wal)
  generalize flushedEq : (store.sync .database).sync .wal = flushed at second
  have synced : Synced flushed := by
    rw [← flushedEq]
    exact synced_of_syncs store
  have database : flushed.content .database = store.content .database := by
    rw [← flushedEq, content_sync, content_sync]
  have wal : flushed.content .wal = store.content .wal := by
    rw [← flushedEq, content_sync, content_sync]
  rw [← database] at installed found guarded
  obtain ⟨middle, m', finish, synced', walSame, idle, root, legacy, generation, last, installed', found', slack', change⟩ :=
    finish_pair read synced wide installed found able bound guarded second.safe_after.content
      fun busy d held => weaken d _ (.inr ⟨busy, held⟩) (.inl wal)
  have tracks : Tracks (v.handle ⟨content.dataEnd, linkTo 160 content.segments content.segments.length, m'.state⟩)
      content := handle_tracks read (by rw [← last, installed'.last]) (by rw [← generation, installed'.generation]) rfl rfl
  have middleWal : middle.content .wal = store.content .wal := walSame.trans wal
  have here : ∀ w, (w = store.content .wal ∨ w = resize (store.content .wal) content.walEnd) →
      P (middle.content .database) w := by
    intro w shape
    rcases change with ⟨_, _, same⟩ | ⟨busy, _, _, _, finished⟩
    · exact weaken _ w (.inl (same.trans database)) shape
    · exact weaken _ w (.inr ⟨busy, finished⟩) shape
  -- The state of the files when open returns.
  have final : ∀ after, Synced after → after.content .database = middle.content .database →
      after.content .wal = resize (store.content .wal) content.walEnd →
      Serving after (v.handle ⟨content.dataEnd, linkTo 160 content.segments content.segments.length, m'.state⟩)
        identity content m' ∧ chosen (after.content .database) = some m' ∧
      ((m.state.phase = 0 → Slack (store.content .database) content m) → Slack (after.content .database) content m') := by
    intro after synced₂ database₂ wal₂
    rw [database] at slack'
    refine ⟨⟨synced₂, wide, tracks, rfl, rfl, rfl, ?_, idle, root, ?_, ?_, ?_⟩, ?_, ?_⟩
    · rw [legacy, ← read_manifests read]
      rfl
    · rw [database₂]
      exact chosen_current found'
    · rw [database₂]
      exact installed'
    · rw [wal₂]
      exact cut
    · rw [database₂]
      exact found'
    · rw [database₂]
      exact slack'
  have delivers : Delivers
      (v.handle ⟨content.dataEnd, linkTo 160 content.segments content.segments.length, m'.state⟩) content 1 :=
    delivers_reset _ _
  rw [database] at change
  have place := read_wal_offset read
  have size := read_wal_size read
  by_cases short : content.walEnd < (store.content .wal).length
  · -- An interrupted append or an interrupted reclaim is cut off.
    have truncate : Runs (Safe P) (fileTruncate .wal content.walEnd) middle ()
        (middle.update .wal (.truncate content.walEnd)) := by
      refine safe_truncate_wal finish.safe_after fun d survives => ?_
      rw [synced_disk synced'] at survives
      rw [survives_settled survives, middleWal]
      exact here _ (.inr rfl)
    have sync := runs_sync .wal truncate.safe_after (truncate.safe_after.sync .wal)
    have database₂ : ((middle.update .wal (.truncate content.walEnd)).sync .wal).content .database =
        middle.content .database := by
      rw [content_sync, content_update_wal]
    have wal₂ : ((middle.update .wal (.truncate content.walEnd)).sync .wal).content .wal =
        resize (store.content .wal) content.walEnd := by
      rw [content_sync, content_update_same, ← middleWal]
      rfl
    obtain ⟨serving, current, bounded⟩ := final _ (synced_sync_update synced' .wal _) database₂ wal₂
    refine ⟨_, _, m', runs_bind first (runs_bind second (runs_bind finish ?_)), serving, current, bounded, delivers,
      wal₂, ?_⟩
    · rw [place, size, if_pos short]
      exact runs_bind truncate (runs_bind sync (runs_pure sync.safe_after _))
    · rw [database₂]
      exact change
  · have whole : content.walEnd = (store.content .wal).length := by omega
    have wal₂ : middle.content .wal = resize (store.content .wal) content.walEnd := by
      rw [middleWal, whole, resize_self]
    obtain ⟨serving, current, bounded⟩ := final _ synced' rfl wal₂
    refine ⟨_, _, m', runs_bind first (runs_bind second (runs_bind finish ?_)), serving, current, bounded, delivers,
      wal₂, change⟩
    rw [place, size, if_neg short]
    exact runs_pure finish.safe_after _

/-- Everything open does to an existing clean pair. -/
theorem recover_runs (safe : Safe P store) (wide : identity.length = 16)
    (installed : Installed (store.content .database) identity content m)
    (found : chosen (store.content .database) = some m) (slack : Slack (store.content .database) content m)
    (able : m.state.phase ≠ 0 → m.state.revision + 2 ≤ uint64Max)
    (bound : m.state.phase ≠ 0 → strict → m.state.revision + 5 ≤ uint64Max + m.state.phase)
    (guarded : m.state.phase ≠ 0 → strict → Guarded (store.content .database) m)
    (replays : Replays True identity content (store.content .wal))
    (weaken : ∀ d w, (d = store.content .database ∨ m.state.phase ≠ 0 ∧ (strict → Finishing identity content d)) →
      (w = store.content .wal ∨ w = resize (store.content .wal) content.walEnd) → P d w) :
    ∃ after db m', Runs (Safe P) (do let v ← validatePair; recoverPair v : Io Batches) store db after ∧
      Settled after db identity content m' ∧ Delivers db content 1 ∧
      after.content .wal = resize (store.content .wal) content.walEnd ∧
      (m.state.phase = 0 ∧ m' = m ∧ after.content .database = store.content .database ∨
        m.state.phase ≠ 0 ∧ Stored (after.content .database) identity content m' ∧
          m.state.revision < m'.state.revision ∧ m'.state.revision ≤ m.state.revision + 2 ∧
          (strict → Finishing identity content (after.content .database))) := by
  obtain ⟨v, ran, read⟩ := validate_replays wide installed found slack replays
  obtain ⟨long, cut⟩ := replays_cut wide replays
  obtain ⟨after, db, m', runs, serving, current, bounded, rest⟩ := recover_read safe wide installed found able bound
    guarded read long cut weaken
  exact ⟨after, db, m', runs_bind (reads_validatePair.runs safe ran) runs,
    serving.settled current (bounded fun _ => slack), rest⟩

end Recovery

section Acquiring
variable {P : Bytes → Bytes → Prop} {store after : Store} {db : Batches} {mode : OpenMode} {scratchSize : Nat}

-- A failed open leaves the handle it was given.
def Refused (db : Batches) (result : Except Error Unit × Batches) : Prop := ∃ error, result = (.error error, db)

theorem quits_ask {α : Type} {safe : Store → Prop} {failed : α → Prop} {call : Call} {next : Reply call → Prog Reply α}
    (kept : safe store) (served : Quits device safe failed (next (Backend.serve call store).1) (Backend.serve call store).2)
    (faults : ∀ reply middle, Fault call store reply middle → Quits device safe failed (next reply) middle) :
    Quits device safe failed (.ask call next) store := by
  intro outcome last execution
  cases execution with
  | stop => exact ⟨kept, fun result found => by cases found⟩
  | serve rest => exact served outcome last rest
  | fail fault rest => exact faults _ _ fault outcome last rest

theorem does_release {safe : Store → Prop} (owned : Owned) (kept : safe store) :
    Does device safe (fun _ => True) (release owned) store () store := by
  have close : ∀ (file : File) (next : Prog Reply Unit), Does device safe (fun _ => True) next store () store →
      Does device safe (fun _ => True) (.ask (.close file) fun _ => next) store () store := by
    intro file next rest
    refine .ask kept (fun reply middle fault => ?_) rest
    cases fault with
    | before call store code known =>
        intro outcome last execution
        exact ⟨(rest.sound execution).1, fun _ _ => trivial⟩
  obtain ⟨database, wal⟩ := owned
  cases database <;> cases wal
  · exact .done kept
  · exact close _ _ (.done kept)
  · exact close _ _ (.done kept)
  · exact close _ _ (close _ _ (.done kept))

theorem quits_release {safe : Store → Prop} (owned : Owned) (kept : safe store) :
    Quits device safe (fun _ => True) (release owned) store :=
  fun _ _ execution => ⟨((does_release owned kept).sound execution).1, fun _ _ => trivial⟩

theorem quits_fail_open {safe : Store → Prop} (owned : Owned) (error : Error) (kept : safe store) :
    Quits device safe (Refused db) (failOpen db owned error) store :=
  quits_bind device (quits_release owned kept) fun _ _ _ still => quits_done device still ⟨error, rfl⟩

theorem does_fail_open {safe : Store → Prop} (owned : Owned) (error : Error) (kept : safe store) :
    Does device safe (Refused db) (failOpen db owned error) store (.error error, db) store :=
  Does.bind (does_release owned kept) (fun _ _ _ still => quits_done device still ⟨error, rfl⟩) (.done kept)

-- One request whose answer is known; each of its faults makes the rest give up.
theorem does_ask {α : Type} {safe : Store → Prop} {failed : α → Prop} {call : Call} {next : Reply call → Prog Reply α}
    {middle : Store} {reply : Reply call} {value : α} (kept : safe store)
    (served : Backend.serve call store = (reply, middle))
    (faults : ∀ reply middle, Fault call store reply middle → Quits device safe failed (next reply) middle)
    (rest : Does device safe failed (next reply) middle value after) :
    Does device safe failed (.ask call next) store value after := by
  have answer : device.serve call store = (reply, middle) := served
  refine .ask kept faults ?_
  rw [answer]
  exact rest

-- The two files of the pair are there.
theorem open_served (safe : Safe P store) (file : File) : Backend.serve (.open file) store = (.ok (), store) := by
  have there : (store.disk? file).isSome = true := by
    cases file with
    | database => exact safe.database
    | wal => exact safe.wal
  simp only [Backend.serve, there, if_true]

def Unacquired {α : Type} (result : Except Error α × Owned) : Prop := ∃ error, result.1 = .error error

theorem acquire_does (safe : Safe P store) (old : mode ≠ .createNew) :
    Does device (Safe P) Unacquired (acquire mode) store (.ok false, ⟨true, false⟩) store := by
  unfold acquire
  rw [if_neg old]
  refine does_ask safe (open_served safe .database) (fun reply middle fault => ?_) (.done safe)
  cases fault with
  | before call store code known =>
      simp only [known.1, false_and, if_false]
      exact quits_done device safe ⟨_, rfl⟩

theorem acquire_new (safe : Safe P store) :
    Does device (Safe P) Unacquired (acquire .createNew) store (.error .pairMismatch, ⟨false, true⟩) store := by
  unfold acquire createPair
  rw [if_pos rfl]
  refine does_ask safe (open_served safe .wal) (fun reply middle fault => ?_) (.done safe)
  cases fault with
  | before call store code known =>
      simp only [ne_eq, known.1, not_false_eq_true, if_true]
      exact quits_done device safe ⟨_, rfl⟩

theorem companion_does (safe : Safe P store) {header : Bytes}
    (read : on (pairHeader .database databaseMagic) store = (.ok header, store)) :
    Does device (Safe P) Unacquired openCompanion store (.ok (), ⟨true, true⟩) store := by
  have lock : Runs (Safe P) (do fileLock .database; let _ ← pairHeader .database databaseMagic : Io Unit) store ()
      store := by
    have front : Reads (do fileLock .database; let _ ← pairHeader .database databaseMagic : Io Unit) :=
      reads_bind (reads_lock _) fun _ => reads_bind (reads_pairHeader _ _) fun _ => reads_pure _
    have ran : on (do fileLock .database; let _ ← pairHeader .database databaseMagic : Io Unit) store =
        (.ok (), store) := by
      rw [on_bind_ok (on_lock _ _), on_bind_ok read]
      rfl
    exact front.runs safe ran
  unfold openCompanion
  refine Does.bind lock ?_ ?_
  · rintro result state ⟨code, rfl⟩ kept
    exact quits_done device kept ⟨_, rfl⟩
  · refine does_ask safe (open_served safe .wal) (fun reply middle fault => ?_) (.done safe)
    cases fault with
    | before call store code known => exact quits_done device safe ⟨_, rfl⟩

-- A handle in use and a small scratch buffer are refused before any effect.
theorem open_held (held : db.database = true ∨ db.wal = true) :
    batchesOpen db mode scratchSize = refuse db (.errno .einval) := by
  rw [batchesOpen, if_pos held]

theorem open_small (closed : db.database = false ∧ db.wal = false) (small : scratchSize < batchScratch) :
    batchesOpen db mode scratchSize = refuse db .bufferTooSmall :=
  (if_neg (by simp [closed])).trans (if_pos small)

theorem open_acquires (closed : db.database = false ∧ db.wal = false) (large : batchScratch ≤ scratchSize) :
    batchesOpen db mode scratchSize = Prog.bind (acquire mode) fun
      | (.error error, owned) => failOpen db owned error
      | (.ok created, owned) =>
          Prog.bind (if created then .done (.ok (), owned) else openCompanion) fun
          | (.error error, owned) => failOpen db owned error
          | (.ok (), owned) => Prog.bind (do let v ← validatePair; recoverPair v : Io Batches) fun
              | .error error => failOpen db owned error
              | .ok handle => succeed handle () :=
  (if_neg (by simp [closed])).trans (if_neg (Nat.not_lt.mpr large))

theorem open_created (safe : Safe P store) (closed : db.database = false ∧ db.wal = false)
    (large : batchScratch ≤ scratchSize) :
    Does device (Safe P) (Refused db) (batchesOpen db .createNew scratchSize) store (.error .pairMismatch, db)
      store := by
  rw [open_acquires closed large]
  refine Does.bind (acquire_new safe) ?_ (does_fail_open _ _ safe)
  rintro ⟨result, owned⟩ state ⟨error, failed⟩ kept
  simp only at failed
  subst failed
  exact quits_fail_open owned error kept

theorem open_does {identity : Bytes} {result : Except Error Unit × Batches} (safe : Safe P store)
    (closed : db.database = false ∧ db.wal = false) (large : batchScratch ≤ scratchSize) (old : mode ≠ .createNew)
    (pair : Holds (store.content .database) 0 (encodePair databaseMagic identity)) (wide : identity.length = 16)
    (rest : Does device (Safe P) (Refused db)
      (Prog.bind (do let v ← validatePair; recoverPair v : Io Batches) fun
        | .error error => failOpen db ⟨true, true⟩ error
        | .ok handle => succeed handle ()) store result after) :
    Does device (Safe P) (Refused db) (batchesOpen db mode scratchSize) store result after := by
  rw [open_acquires closed large]
  refine Does.bind (acquire_does safe old) ?_ ?_
  · rintro ⟨result, owned⟩ state ⟨error, failed⟩ kept
    simp only at failed
    subst failed
    exact quits_fail_open owned error kept
  · simp only [Bool.false_eq_true, if_false]
    refine Does.bind (companion_does safe (pair_header pair (by decide) wide)) ?_ rest
    rintro ⟨result, owned⟩ state ⟨error, failed⟩ kept
    simp only at failed
    subst failed
    exact quits_fail_open owned error kept

theorem does_opened {handle : Batches}
    (runs : Runs (Safe P) (do let v ← validatePair; recoverPair v : Io Batches) store handle after) :
    Does device (Safe P) (Refused db)
      (Prog.bind (do let v ← validatePair; recoverPair v : Io Batches) fun
        | .error error => failOpen db ⟨true, true⟩ error
        | .ok handle => succeed handle ()) store (.ok (), handle) after := by
  refine Does.bind runs ?_ (.done (Does.safe_after runs))
  rintro result state ⟨code, rfl⟩ kept
  exact quits_fail_open _ _ kept

theorem does_unreadable (safe : Safe P store) {error : Error}
    (ran : on validatePair store = (.error error, store)) :
    Does device (Safe P) (Refused db)
      (Prog.bind (do let v ← validatePair; recoverPair v : Io Batches) fun
        | .error error => failOpen db ⟨true, true⟩ error
        | .ok handle => succeed handle ()) store (.error error, db) store := by
  have front : Does device (Safe P) Failed validatePair store (.error error) store :=
    Observes.does_of_run reads_validatePair.observes safe ran
  have both : Does device (Safe P) Failed (do let v ← validatePair; recoverPair v : Io Batches) store
      (.error error) store := by
    refine Does.bind front ?_ (.done safe)
    rintro result state ⟨code, rfl⟩ kept
    exact quits_done device kept ⟨code, rfl⟩
  refine Does.bind both ?_ (does_fail_open _ _ safe)
  rintro result state ⟨code, rfl⟩ kept
  exact quits_fail_open _ _ kept

end Acquiring

end Timelite.Opening
