import Timelite.Databases

/-!
Calls on an open handle. `Settled` ties the fields of a handle to the content of
the two files between calls. `Performs` is the triple of a call: undisturbed it has
one result, and disturbed it either changed nothing or leaves the handle failed.
-/
namespace Timelite.Calls
open ByteFile Program Durable Codec Backend BackendLaws Layout HeaderWalk WalLaws Contents Images Crashes Reader
  BatchApi Spans
variable {α β : Type}

section Handles

/-- The fields of a handle that do not depend on its cursor. -/
structure Tracks (db : Batches) (content : Content) : Prop where
  database : db.database = true
  wal : db.wal = true
  walEnd : db.walEnd = content.walEnd
  sequence : db.sequence = content.high
  dataEnd : db.dataEnd = content.dataEnd
  installed : db.installed = content.installed
  generation : db.generation = content.segments.length
  liveBatches : db.liveBatches = live content.segments
  lastTime : db.lastTime = content.floor
  installedTime : db.installedTime = content.installedTime
  lastSegment : db.lastSegment = linkTo 160 content.segments content.segments.length
  spanStart : db.spanStart = Layout.spanStart content.segments
  walOrdered : db.walOrdered = rising (timesOf content.pending)
  walSpan : content.pending ≠ [] →
    db.walFirstTime = firstOf (timesOf content.pending) ∧
    db.walMinimum = leastOf (timesOf content.pending) ∧
    db.walMaximum = greatestOf (timesOf content.pending)

/-- Between calls: the handle, the manifest in force and both files agree, and
both files are synced. -/
structure Settled (store : Store) (db : Batches) (identity : Bytes) (content : Content) (m : Manifests) :
    Prop where
  synced : Synced store
  wide : identity.length = 16
  tracks : Tracks db content
  ready : db.failed = false
  revision : db.revision = m.state.revision
  retention : db.retention = m.state.enabled
  legacy : db.legacy = m.legacy
  phase : m.state.phase = 0
  root : m.state.root = 160
  chosen : Images.chosen (store.content .database) = some m
  installed : Installed (store.content .database) identity content m
  logged : Logged (store.content .wal) identity content []
  slack : Slack (store.content .database) content m

/-- The same of a handle whose reopening is not promised: the other slot may be
newer, and there may be more bytes behind the data than open tolerates. -/
structure Serving (store : Store) (db : Batches) (identity : Bytes) (content : Content) (m : Manifests) :
    Prop where
  synced : Synced store
  wide : identity.length = 16
  tracks : Tracks db content
  ready : db.failed = false
  revision : db.revision = m.state.revision
  retention : db.retention = m.state.enabled
  legacy : db.legacy = m.legacy
  phase : m.state.phase = 0
  root : m.state.root = 160
  current : Databases.Current (store.content .database) m
  installed : Installed (store.content .database) identity content m
  logged : Logged (store.content .wal) identity content []

theorem Settled.serving {store : Store} {db : Batches} {identity : Bytes} {content : Content} {m : Manifests}
    (settled : Settled store db identity content m) : Serving store db identity content m :=
  { settled with current := Databases.chosen_current settled.chosen }

theorem Serving.settled {store : Store} {db : Batches} {identity : Bytes} {content : Content} {m : Manifests}
    (serving : Serving store db identity content m) (found : Images.chosen (store.content .database) = some m)
    (slack : Slack (store.content .database) content m) : Settled store db identity content m :=
  { serving with chosen := found, slack := slack }

theorem Serving.wal_length {store : Store} {db : Batches} {identity : Bytes} {content : Content}
    {m : Manifests} (serving : Serving store db identity content m) :
    (store.content .wal).length = content.walEnd := by
  have length := serving.logged.length serving.wide
  simpa using length

theorem Serving.frames_held {store : Store} {db : Batches} {identity : Bytes} {content : Content}
    {m : Manifests} (serving : Serving store db identity content m) :
    Holds (store.content .wal) 32 (frames (content.installed + 1) content.pending) :=
  serving.logged.frames_held serving.wide

theorem Serving.chained {store : Store} {db : Batches} {identity : Bytes} {content : Content}
    {m : Manifests} (serving : Serving store db identity content m) :
    SegmentLaws.Chained store 160 content.dataEnd content.segments := by
  have chained := serving.installed.chained
  rw [serving.installed.extent, serving.root] at chained
  exact chained

theorem Serving.batch_ready {store : Store} {db : Batches} {identity : Bytes} {content : Content}
    {m : Manifests} (serving : Serving store db identity content m) : batchReady db = .ok () := by
  rw [batchReady, serving.tracks.wal, serving.ready]
  rfl

theorem Serving.read_arguments {store : Store} {db : Batches} {identity : Bytes} {content : Content}
    {m : Manifests} (serving : Serving store db identity content m) (scratchSize : Nat) :
    readArguments db scratchSize =
      if scratchSize < batchScratch then .error .bufferTooSmall else .ok () := by
  rw [readArguments, serving.batch_ready]

end Handles

section Triples
variable {P : Bytes → Bytes → Prop} {store after : Store} {db : Batches}

/-- Undisturbed the call returns `value` in `after`. Disturbed it stays in states
that survive a crash, and fails either with nothing changed or with the handle
marked failed. -/
def Performs (P : Bytes → Bytes → Prop) (program : Op α) (db : Batches) (store : Store)
    (value : Except Error α × Batches) (after : Store) : Prop :=
  Prog.run device program store = (value, after) ∧
    ∀ outcome last, Exec device program store outcome last → Safe P last ∧
      ∀ result, outcome = some result → (result = value ∧ last = after) ∨
        (∃ code, result = (.error (.errno code), db) ∧ last = store) ∨
        (∃ code db', result = (.error (.errno code), db') ∧ db'.failed = true)

-- The failures of a call after its first effect.
def Poisoned (result : Except Error α × Batches) : Prop :=
  ∃ code db', result = (.error (.errno code), db') ∧ db'.failed = true

theorem calls_done {value : Except Error α × Batches} (safe : Safe P store) :
    Performs P (.done value) db store value store := by
  refine ⟨rfl, fun outcome last execution => ?_⟩
  obtain ⟨rfl, same⟩ := exec_done device execution
  exact ⟨safe, fun result found => .inl ⟨same result found, rfl⟩⟩

theorem calls_of_does {program : Op α} {value : Except Error α × Batches}
    (triple : Does device (Safe P) Poisoned program store value after) :
    Performs P program db store value after := by
  refine ⟨triple.run_eq, fun outcome last execution => ?_⟩
  obtain ⟨safe, results⟩ := triple.sound execution
  refine ⟨safe, fun result found => ?_⟩
  rcases results result found with same | ⟨code, db', shape, poisoned⟩
  · exact .inl same
  · exact .inr (.inr ⟨code, db', shape, poisoned⟩)

theorem reads_exec {program : Io α} (reads : Reads program) {outcome : Option (Except Error α)} {last : Store}
    (execution : Exec device (program : Prog Reply (Except Error α)) store outcome last) :
    last = store ∧ ∀ result, outcome = some result → result = (on program store).1 ∨ Failed result := by
  have triple : Does device (fun state => state = store) Failed program store _ store :=
    Observes.does reads.observes rfl
  obtain ⟨same, results⟩ := triple.sound execution
  refine ⟨same, fun result found => ?_⟩
  rcases results result found with ⟨equal, _⟩ | failed
  · exact .inl equal
  · exact .inr failed

theorem run_attempt_ok {step : Io α} {next : α → Op β} {read : α} (ran : on step store = (.ok read, after)) :
    Prog.run device (attempt db step next) store = Prog.run device (next read) after := by
  have front : Prog.run device (step : Prog Reply (Except Error α)) store = (.ok read, after) := ran
  refine (run_bind device _ _ store).trans ?_
  rw [front]

theorem run_attempt_error {step : Io α} {next : α → Op β} {error : Error}
    (ran : on step store = (.error error, after)) :
    Prog.run device (attempt db step next) store = ((.error error, db), after) := by
  have front : Prog.run device (step : Prog Reply (Except Error α)) store = (.error error, after) := ran
  refine (run_bind device _ _ store).trans ?_
  rw [front]
  rfl

/-- A reading step before the first effect. -/
theorem calls_reads {step : Io α} {next : α → Op β} {read : α} {value : Except Error β × Batches}
    (safe : Safe P store) (reads : Reads step) (ran : on step store = (.ok read, store))
    (rest : Performs P (next read) db store value after) :
    Performs P (attempt db step next) db store value after := by
  constructor
  · exact (run_attempt_ok ran).trans rest.1
  · intro outcome last execution
    rcases exec_bind device execution with ⟨ended, inside⟩ | ⟨result, middle, front, tail⟩
    · obtain ⟨same, _⟩ := reads_exec reads inside
      exact ⟨same ▸ safe, fun result found => by rw [ended] at found; cases found⟩
    · obtain ⟨same, results⟩ := reads_exec reads front
      subst same
      rcases results result rfl with equal | ⟨code, failed⟩
      · rw [ran] at equal
        subst equal
        exact rest.2 outcome last tail
      · subst failed
        obtain ⟨same, ended⟩ := exec_done device tail
        subst same
        exact ⟨safe, fun result found => .inr (.inl ⟨code, ended result found, rfl⟩)⟩

-- A reading step that fails by itself.
theorem calls_reads_error {step : Io α} {next : α → Op β} {error : Error}
    (safe : Safe P store) (reads : Reads step) (ran : on step store = (.error error, store)) :
    Performs P (attempt db step next) db store (.error error, db) store := by
  constructor
  · exact run_attempt_error ran
  · intro outcome last execution
    rcases exec_bind device execution with ⟨ended, inside⟩ | ⟨result, middle, front, tail⟩
    · obtain ⟨same, _⟩ := reads_exec reads inside
      exact ⟨same ▸ safe, fun result found => by rw [ended] at found; cases found⟩
    · obtain ⟨same, results⟩ := reads_exec reads front
      subst same
      rcases results result rfl with equal | ⟨code, failed⟩
      · rw [ran] at equal
        subst equal
        obtain ⟨same, ended⟩ := exec_done device tail
        subst same
        exact ⟨safe, fun result found => .inl ⟨ended result found, rfl⟩⟩
      · subst failed
        obtain ⟨same, ended⟩ := exec_done device tail
        subst same
        exact ⟨safe, fun result found => .inr (.inl ⟨code, ended result found, rfl⟩)⟩

/-- A step on a handle already marked failed. -/
theorem does_attempt {step : Io α} {next : α → Op β} {read : α} {middle : Store}
    {value : Except Error β × Batches} (poisoned : db.failed = true)
    (front : Runs (Safe P) step store read middle)
    (rest : Does device (Safe P) Poisoned (next read) middle value after) :
    Does device (Safe P) Poisoned (attempt db step next) store value after := by
  refine Does.bind front ?_ rest
  rintro result state ⟨code, rfl⟩ kept
  exact quits_done device kept ⟨code, db, rfl, poisoned⟩

theorem performs_mono {Q : Bytes → Bytes → Prop} {program : Op α} {value : Except Error α × Batches}
    (performs : Performs P program db store value after) (implied : ∀ d w, P d w → Q d w) :
    Performs Q program db store value after :=
  ⟨performs.1, fun outcome last execution =>
    ⟨(performs.2 outcome last execution).1.mono implied, (performs.2 outcome last execution).2⟩⟩

theorem runs_mono {Q : Bytes → Bytes → Prop} {step : Io α} {read : α}
    (runs : Runs (Safe P) step store read after) (implied : ∀ d w, P d w → Q d w) :
    Runs (Safe Q) step store read after :=
  Does.weaken runs (fun _ safe => safe.mono implied) fun _ failed => failed

end Triples

end Timelite.Calls
