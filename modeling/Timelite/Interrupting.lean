import Timelite.Observing

/-!
What the next open finds after a call was cut short by a failure, a restart or a
crash, for every handle that a run from a creation can reach.
-/
namespace Timelite.Interrupting
open ByteFile Program Durable Codec CodecLaws Backend BackendLaws Layout HeaderWalk WalLaws Contents Images Crashes
  Databases Calls Appending Checkpointing Retaining Cursor Expiring Reader BatchApi Opening Atomicity System Refinement
  Soundness Observing Aggregating

/-- What some run from a creation leads to. -/
def Reached (host : Host) : Prop := ∃ start events, Created start ∧ Run start events host

theorem reached_holding {host : Host} (reached : Reached host) (ready : batchReady host.db = .ok ()) :
    ∃ identity v, Holding host identity v := by
  obtain ⟨start, events, created, run⟩ := reached
  obtain ⟨identity, sound⟩ := reachable_sound created run
  cases sound with
  | live v holds live => exact ⟨identity, v, live, holds⟩
  | down unready wide safe =>
      obtain ⟨error, refused⟩ := unready_error unready
      rw [refused] at ready
      cases ready

-- What an operation leaves, whatever happens in it.
theorem performs_safe {α : Type} {answer : α → Answer} {call : Op α} {P : Bytes → Bytes → Prop} {db : Batches}
    {store after last : Store} {value : Except Error α × Batches} {outcome : Option (Except Error Answer × Batches)}
    (performs : Performs P call db store value after) (execution : Exec device (answering answer call) store outcome last) :
    Safe P last := ((performs_answering performs).2 _ _ execution).1

section Append
variable {host : Host} {identity : Bytes} {v : View} {records : List Record} {scratchSize sequence : Nat}

/-- The images of a cut append: the database and a prefix of the frame behind the WAL. -/
def Extended (host : Host) (frame : Bytes) (d w : Bytes) : Prop :=
  d = host.store.content .database ∧
    ∃ count, count ≤ frame.length ∧ w = host.store.content .wal ++ frame.take count

theorem append_accepted (holding : Holding host identity v)
    (success : (host.call (.append records scratchSize)).1 = .ok (.sequence sequence)) :
    sequence = v.content.high + 1 ∧ appendRefusal v.content records scratchSize = none ∧
      ∃ batch : Batch, batch.records = records ∧ Accepted v.content batch := by
  obtain ⟨v', answers, _⟩ := @holding_call host identity v (.append records scratchSize) holding (by simp)
  rw [success] at answers
  cases answers with
  | append batch scratchSize v accepted none => exact ⟨rfl, none, batch, rfl, accepted⟩

theorem append_cut (holding : Holding host identity v)
    (success : (host.call (.append records scratchSize)).1 = .ok (.sequence sequence))
    {outcome : Option (Except Error Answer × Batches)} {store : Store}
    (execution : Exec device (Act.perform host.db (.append records scratchSize)) host.store outcome store) :
    Safe (Extended host (frame sequence records)) store ∧
      ∀ answer db, outcome = some (.ok answer, db) → answer = .sequence sequence := by
  obtain ⟨rfl, none, batch, rfl, accepted⟩ := append_accepted holding success
  obtain ⟨after, performs, _⟩ := append_live holding.live accepted none
    (fun count => show Extended host (frame (v.content.high + 1) batch.records) (host.store.content .database)
        (host.store.content .wal ++ (frame (v.content.high + 1) batch.records).take count) by
      refine ⟨rfl, min count (frame (v.content.high + 1) batch.records).length, Nat.min_le_right _ _, ?_⟩
      rw [← List.take_take, List.take_length])
  have answering : Performs (Extended host (frame (v.content.high + 1) batch.records))
      (Act.perform host.db (.append batch.records scratchSize)) _ _ _ _ := performs_answering performs
  obtain ⟨safe, results⟩ := answering.2 _ _ execution
  refine ⟨safe, fun answer db found => ?_⟩
  rcases results _ found with ⟨same, _⟩ | ⟨code, same, _⟩ | ⟨code, db', same, _⟩
  · exact Except.ok.inj (congrArg Prod.fst same)
  · cases congrArg Prod.fst same
  · cases congrArg Prod.fst same

end Append

/-- A cut append leaves the previous batches, or those and the whole batch, or a pair
that open rejects unchanged; which one depends on how much of the frame survived. -/
theorem append_atomic {host : Host} {records : List Record} {scratchSize sequence : Nat} (reached : Reached host)
    (ready : batchReady host.db = .ok ())
    (accepted : (host.call (.append records scratchSize)).1 = .ok (.sequence sequence)) :
    ∃ items, Exposes host items ∧ (∀ item ∈ items, item.1 < sequence) ∧
      ∀ outcome store, Exec device (Act.perform host.db (.append records scratchSize)) host.store outcome store →
        (∀ answer db, outcome = some (.ok answer, db) → answer = .sequence sequence) ∧
        ∀ next, Resumed store next → ∃ count, count ≤ (frame sequence records).length ∧
          next.store.content .database = host.store.content .database ∧
          next.store.content .wal = host.store.content .wal ++ (frame sequence records).take count ∧
          if count = (frame sequence records).length then
            Reopens next fun opened => Exposes opened (items ++ [(sequence, records)])
          else if count = 0 ∨ 32 ≤ count then Reopens next fun opened => Exposes opened items
          else Rejects next .invalidDatabase := by
  obtain ⟨identity, v, holding⟩ := reached_holding reached ready
  have cut := fun outcome store => @append_cut host identity v records scratchSize sequence holding accepted outcome store
  obtain ⟨rfl, none, batch, rfl, passed⟩ := append_accepted holding accepted
  have live := holding.live
  have wide := live.settled.wide
  refine ⟨listed v.content, holding_exposes holding, fun item member => ?_, fun outcome store execution => ?_⟩
  · obtain ⟨inner, inside, rfl⟩ := List.mem_map.mp member
    have bounds := exposed_bounds inside
    simp only [shown]
    omega
  obtain ⟨safe, answered⟩ := cut outcome store execution
  refine ⟨answered, fun next resumed => ?_⟩
  obtain ⟨safe, fresh⟩ := resumed_safe safe resumed
  obtain ⟨database, count, most, wal⟩ := safe.content
  have length : (frame (v.content.high + 1) batch.records).length = batch.size := frame_length _ _
  have image := append_image live.settled passed count
  have held : Held identity v.content (next.store.content .database) := by
    rw [database]
    exact live.held
  refine ⟨count, most, database, wal, ?_⟩
  by_cases whole : count = (frame (v.content.high + 1) batch.records).length
  · rw [if_neg (by omega), ← wal] at image
    have recovers : Recovers True identity (v.content.append batch passed.more passed.space)
        (next.store.content .database) (next.store.content .wal) :=
      ⟨held_append held passed.more passed.space, .logged _ image fun _ => .inl rfl⟩
    rw [if_pos whole]
    refine (reopens_holding safe fresh wide recovers holding.honest).mono ?_
    rintro opened ⟨m, held'⟩
    have exposes := opened_exposes held'
    rw [listed_append] at exposes
    exact exposes
  · have short : count < batch.size := by omega
    rw [if_pos short, ← wal] at image
    rw [if_neg whole]
    have long : ((frame (v.content.high + 1) batch.records).take count).length = count := by
      rw [List.length_take]
      omega
    split
    · rename_i readable
      have clean : Readable ((frame (v.content.high + 1) batch.records).take count) := by
        rcases readable with nothing | header
        · exact .inl (by rw [nothing, List.take_zero])
        · exact .inr (by omega)
      refine (reopens_holding safe fresh wide ⟨held, .logged _ image fun _ => clean⟩ holding.honest).mono ?_
      rintro opened ⟨m, held'⟩
      exact opened_exposes held'
    · rename_i unreadable
      refine rejects_stuck safe fresh wide held image fun clean => unreadable ?_
      rcases clean with nothing | header
      · have empty := congrArg List.length nothing
        rw [long] at empty
        exact .inl empty
      · exact .inr (by omega)

/-- One record on the pair just created. -/
theorem append_atomic_fresh : ∃ items, Exposes fresh items ∧ (∀ item ∈ items, item.1 < 1) ∧
    ∀ outcome store, Exec device (Act.perform fresh.db (.append [⟨1, 5, 7⟩] batchScratch)) fresh.store outcome store →
      (∀ answer db, outcome = some (.ok answer, db) → answer = .sequence 1) ∧
      ∀ next, Resumed store next → ∃ count, count ≤ (frame 1 [⟨1, 5, 7⟩]).length ∧
        next.store.content .database = fresh.store.content .database ∧
        next.store.content .wal = fresh.store.content .wal ++ (frame 1 [⟨1, 5, 7⟩]).take count ∧
        if count = (frame 1 [⟨1, 5, 7⟩]).length then
          Reopens next fun opened => Exposes opened (items ++ [(1, [⟨1, 5, 7⟩])])
        else if count = 0 ∨ 32 ≤ count then Reopens next fun opened => Exposes opened items
        else Rejects next .invalidDatabase :=
  append_atomic ⟨fresh, [], fresh_created, .start _⟩ (by decide +kernel) (by decide +kernel)

/-- The pair with one pending batch. -/
def filled : Host := (fresh.call (.append [⟨1, 5, 7⟩] batchScratch)).2

theorem filled_reached : Reached filled :=
  ⟨fresh, _, fresh_created, .step (.start _) (call_step fresh (.append [⟨1, 5, 7⟩] batchScratch))⟩

section Checkpoint
variable {host opened : Host} {identity : Bytes} {v : View} {scratchSize : Nat}

/-- What a checkpoint leaves of a pair: the old content and its WAL, or the new content. -/
def Checkpointed (host : Host) (identity : Bytes) (content : Content) (d w : Bytes) : Prop :=
  Held identity content d ∧ w = host.store.content .wal ∨
    ∃ some space, Recovers True identity (content.checkpoint some space) d w

theorem checkpoint_cut (holding : Holding host identity v) (some : v.content.pending ≠ [])
    {outcome : Option (Except Error Answer × Batches)} {store : Store}
    (execution : Exec device (Act.perform host.db (.checkpoint scratchSize)) host.store outcome store) :
    Safe (Checkpointed host identity v.content) store := by
  have live := holding.live
  have safe : Safe (Checkpointed host identity v.content) host.store :=
    safe_synced live.settled.synced (.inl ⟨live.held, rfl⟩)
  cases refusal : checkpointRefusal v.content v.m scratchSize with
  | some error =>
      have refused : Performs (Checkpointed host identity v.content) (batchesCheckpoint host.db scratchSize) host.db
          host.store (.error error, host.db) host.store := by
        rw [checkpoint_refused live.settled.serving refusal]
        exact calls_done safe
      exact performs_safe refused execution
  | none =>
      obtain ⟨_, _, space⟩ := checkpoint_bounds refusal some
      have old : ∀ d, Held identity v.content d → Unpublished v.m (host.store.content .database) d →
          Checkpointed host identity v.content d (host.store.content .wal) := fun d held _ => .inl ⟨held, rfl⟩
      obtain ⟨after, performs, _⟩ := checkpoint_live live some refusal space old
        fun d w held _ replays => .inr ⟨some, space, held, replays⟩
      exact performs_safe performs execution

/-- The next append gets the next sequence number, and the next checkpoint keeps the
batches, unless order or capacity forbids it. -/
structure Continues (opened : Host) (items : List Item) (high : Nat) : Prop where
  append : ∀ records scratchSize, 0 < records.length → records.length ≤ maxRecords → batchScratch ≤ scratchSize →
    (opened.call (.append records scratchSize)).1 = .ok (.sequence (high + 1)) ∨
      (opened.call (.append records scratchSize)).1 = .error .outOfOrder ∨
      (opened.call (.append records scratchSize)).1 = .error .walFull ∨
      high = uint64Max ∧ (opened.call (.append records scratchSize)).1 = .error (.errno .eoverflow)
  checkpoint : ∀ scratchSize, batchScratch ≤ scratchSize →
    (opened.call (.checkpoint scratchSize)).1 = .ok .none ∧
        Exposes (opened.call (.checkpoint scratchSize)).2 items ∧
        Reopens ⟨(opened.call (.checkpoint scratchSize)).2.store, batchesInit⟩ (fun again => Exposes again items) ∨
      (opened.call (.checkpoint scratchSize)).1 = .error .databaseFull ∨
      opened.db.revision = uint64Max ∧ (opened.call (.checkpoint scratchSize)).1 = .error (.errno .eoverflow)

/-- Closing or losing the process loses nothing. -/
theorem holding_reopens (holding : Holding host identity v) :
    Reopens ⟨host.store, batchesInit⟩ fun opened => ∃ m, Holding opened identity ⟨v.content, m, 1⟩ :=
  reopens_holding (safe_synced holding.live.settled.synced trivial : Safe (fun _ _ => True) host.store) rfl
    holding.live.settled.wide holding.live.recovers holding.honest

theorem append_answer (holding : Holding opened identity v) {records : List Record} (counted : 0 < records.length)
    (few : records.length ≤ maxRecords) (large : batchScratch ≤ scratchSize) :
    (opened.call (.append records scratchSize)).1 = .ok (.sequence (v.content.high + 1)) ∨
      (opened.call (.append records scratchSize)).1 = .error .outOfOrder ∨
      (opened.call (.append records scratchSize)).1 = .error .walFull ∨
      v.content.high = uint64Max ∧ (opened.call (.append records scratchSize)).1 = .error (.errno .eoverflow) := by
  obtain ⟨v', answers, _⟩ := @holding_call opened identity v (.append records scratchSize) holding (by simp)
  generalize (opened.call (.append records scratchSize)).1 = result at answers ⊢
  cases answers with
  | append batch scratchSize v accepted none => exact .inl rfl
  | appendRefused records scratchSize v error refused =>
      unfold appendRefusal at refused
      generalize (if v.content.high ≠ 0 then v.content.floor else 0) = floor at refused
      rw [if_neg (by omega), if_neg (by omega)] at refused
      by_cases order : timesFrom floor records = false
      · rw [if_pos order] at refused
        cases refused
        exact .inr (.inl rfl)
      rw [if_neg order] at refused
      by_cases full : 64 + records.length * 20 > walCapacity - v.content.walEnd
      · rw [if_pos full] at refused
        cases refused
        exact .inr (.inr (.inl rfl))
      rw [if_neg full] at refused
      by_cases top : v.content.high = uint64Max
      · rw [if_pos top] at refused
        cases refused
        exact .inr (.inr (.inr ⟨top, rfl⟩))
      · rw [if_neg top] at refused
        cases refused

theorem holding_continues (holding : Holding opened identity v) :
    Continues opened (listed v.content) v.content.high where
  append := fun records scratchSize counted few large => append_answer holding counted few large
  checkpoint := by
    intro scratchSize large
    obtain ⟨v', answers, after⟩ := @holding_call opened identity v (.checkpoint scratchSize) holding (by simp)
    have exposes := holding_exposes after
    have reopens : Reopens ⟨(opened.call (.checkpoint scratchSize)).2.store, batchesInit⟩ fun again =>
        Exposes again (listed v'.content) := (holding_reopens after).mono fun again ⟨m, held⟩ => opened_exposes held
    generalize (opened.call (.checkpoint scratchSize)).1 = result at answers ⊢
    cases answers with
    | checkpointRefused scratchSize v error refused =>
        unfold checkpointRefusal at refused
        rw [if_neg (by omega)] at refused
        split at refused
        · cases refused
        · split at refused
          · rename_i top
            cases refused
            exact .inr (.inr ⟨holding.live.settled.revision.trans top, rfl⟩)
          · split at refused
            · cases refused
              exact .inr (.inl rfl)
            · cases refused
    | checkpointNothing scratchSize v accepted empty => exact .inl ⟨rfl, exposes, reopens⟩
    | checkpoint scratchSize v accepted some space =>
        simp only [listed_checkpoint] at exposes reopens
        exact .inl ⟨rfl, exposes, reopens⟩

theorem holding_wal (holding : Holding host identity v) :
    host.store.content .wal = encodePair walMagic identity ++ frames (v.content.installed + 1) v.content.pending := by
  have bytes := holding.live.settled.logged.bytes
  rwa [List.append_nil] at bytes

end Checkpoint

/-- After a cut checkpoint open finds the old state or the new one. Both hold every
batch committed before, and both can go on. -/
theorem checkpoint_atomic {host : Host} {scratchSize : Nat} {before : Status} (reached : Reached host)
    (ready : batchReady host.db = .ok ()) (known : (host.call .getStatus).1 = .ok (.status before))
    (nonempty : before.pendingBatches ≠ 0) :
    ∃ items, Exposes host items ∧ items.length = before.committedBatches ∧
      ∀ outcome store, Exec device (Act.perform host.db (.checkpoint scratchSize)) host.store outcome store →
        ∀ next, Resumed store next → Reopens next fun opened =>
          Exposes opened items ∧ Continues opened items host.db.sequence ∧
          ∃ after, (opened.call .getStatus).1 = .ok (.status after) ∧
            (after = before ∧ opened.db.generation = host.db.generation ∧
                opened.store.content .wal = host.store.content .wal ∨
              after = { before with
                  installedBatches := before.committedBatches
                  pendingBatches := 0
                  installedSegments := before.installedSegments + 1
                  walBytes := 32
                  installedBytes := before.installedBytes + 64 + (before.walBytes - 32) } ∧
                opened.db.generation = host.db.generation + 1 ∧ (opened.store.content .wal).length = 32) := by
  obtain ⟨identity, v, holding⟩ := reached_holding reached ready
  have live := holding.live
  have same : before = statusOf v.content := by
    rw [holding_status holding] at known
    simp only [Except.ok.injEq, Answer.status.injEq] at known
    exact known.symm
  have some : v.content.pending ≠ [] := by
    intro empty
    rw [same, statusOf, empty] at nonempty
    exact nonempty rfl
  refine ⟨listed v.content, holding_exposes holding, ?_, fun outcome store execution next resumed => ?_⟩
  · rw [same]
    exact listed_length v.content
  obtain ⟨safe, fresh⟩ := resumed_safe (checkpoint_cut holding some execution) resumed
  have high : host.db.sequence = v.content.high := live.settled.tracks.sequence
  have generation : host.db.generation = v.content.segments.length := live.settled.tracks.generation
  have walHeld := holding_wal holding
  have replays : Replays True identity v.content (host.store.content .wal) := .logged [] live.settled.logged fun _ => .inl rfl
  rcases safe.content with ⟨held, wal⟩ | ⟨_, space, recovers⟩
  · have recovers : Recovers True identity v.content (next.store.content .database) (next.store.content .wal) :=
      ⟨held, wal ▸ replays⟩
    refine (reopens_holding safe fresh live.settled.wide recovers holding.honest).mono ?_
    rintro opened ⟨m, holding'⟩
    have continues := holding_continues holding'
    have walHeld' := holding_wal holding'
    refine ⟨opened_exposes holding', by rw [high]; exact continues, _, congrArg Prod.fst (holding_status holding'),
      .inl ⟨same.symm, holding'.live.settled.tracks.generation.trans generation.symm, walHeld'.trans walHeld.symm⟩⟩
  · have honest := honest_effect holding.honest (.checkpoint scratchSize v.content some space)
    refine (reopens_holding safe fresh live.settled.wide recovers honest).mono ?_
    rintro opened ⟨m, holding'⟩
    have exposes := opened_exposes holding'
    have continues := holding_continues holding'
    have length := holding'.live.settled.serving.wal_length
    simp only [listed_checkpoint] at exposes continues
    refine ⟨exposes, by rw [high]; exact continues, _, congrArg Prod.fst (holding_status holding'), .inr ⟨?_, ?_, ?_⟩⟩
    · rw [same]
      exact status_checkpoint v.content some space
    · rw [holding'.live.settled.tracks.generation, generation]
      simp only [Content.checkpoint, List.length_append, List.length_singleton]
    · rw [length]
      rfl

theorem checkpoint_atomic_filled : ∃ items, Exposes filled items ∧ items.length = 1 ∧
    ∀ outcome store, Exec device (Act.perform filled.db (.checkpoint batchScratch)) filled.store outcome store →
      ∀ next, Resumed store next → Reopens next fun opened =>
        Exposes opened items ∧ Continues opened items filled.db.sequence ∧
        ∃ after, (opened.call .getStatus).1 = .ok (.status after) ∧
          (after = ⟨1, 0, 1, 0, 116, 0, 5⟩ ∧ opened.db.generation = filled.db.generation ∧
              opened.store.content .wal = filled.store.content .wal ∨
            after = ⟨1, 1, 0, 1, 32, 148, 5⟩ ∧
              opened.db.generation = filled.db.generation + 1 ∧ (opened.store.content .wal).length = 32) :=
  @checkpoint_atomic filled batchScratch ⟨1, 0, 1, 0, 116, 0, 5⟩ filled_reached (by decide +kernel) (by decide +kernel)
    (by decide)

section Expire
variable {φ : Content → Prop} {host host' : Host} {identity : Bytes} {v : View} {act : Act}

/-- A call that does not change what a pair holds. -/
def Quiet : Act → Prop
  | .append .. | .checkpoint .. | .expireBefore .. => False
  | _ => True

/-- Some content of the family is held by both images, and open recovers it. -/
def Whole (φ : Content → Prop) (identity d w : Bytes) : Prop :=
  ∃ content, φ content ∧ Recovers True identity content d w

-- Apart from open, a quiet call asks the files for nothing but their bytes.
theorem quiet_still {db : Batches} {store last : Store} {outcome : Option (Except Error Answer × Batches)}
    (quiet : Quiet act) (other : ∀ mode scratchSize, act ≠ .openPair mode scratchSize)
    (execution : Exec device (act.perform db) store outcome last) : last = store := by
  have observed : ∀ {α : Type} {answer : α → Answer} {call : Op α}, Observes device (Stopped db) call →
      Exec device (answering answer call) store outcome last → last = store := by
    intro α answer call observes inside
    obtain ⟨inner, execution, _⟩ := exec_answering inside
    have still : Does device (fun state => state = store) (Stopped db) call store _ store := observes.does rfl
    exact (still.sound execution).1
  cases act with
  | openPair mode scratchSize => exact absurd rfl (other mode scratchSize)
  | close =>
      obtain ⟨inner, inside, _⟩ := exec_answering execution
      exact (quits_close db store _ _ inside).1
  | append records scratchSize => exact quiet.elim
  | checkpoint scratchSize => exact quiet.elim
  | expireBefore cutoff scratchSize => exact quiet.elim
  | next capacity scratchSize => exact observed (observes_next db capacity scratchSize) execution
  | nextRange range capacity scratchSize => exact observed (observes_next_range db range capacity scratchSize) execution
  | seek from_us scratchSize => exact observed (observes_seek db from_us scratchSize) execution
  | aggregateRange range scratchSize => exact observed (observes_aggregate db range scratchSize) execution
  | rewind => exact (exec_done device execution).1
  | getStatus => exact (exec_done device execution).1

theorem whole_leaves {d w : Bytes} (whole : Whole φ identity d w) : Leaves φ identity d w := by
  obtain ⟨content, holds, held, replays⟩ := whole
  exact leaves_held holds held replays

-- Open either recovers what both files hold, or does nothing.
theorem open_whole {db : Batches} {mode : OpenMode} {scratchSize : Nat} {store last : Store}
    {outcome : Option (Except Error Answer × Batches)} (wide : identity.length = 16) (safe : Safe (Whole φ identity) store)
    (execution : Exec device (Act.perform db (.openPair mode scratchSize)) store outcome last) :
    Safe (Whole φ identity) last := by
  obtain ⟨inner, inside, _⟩ := exec_answering execution
  refine (@open_outcome (Whole φ identity) (fun _ _ => True) store last db mode scratchSize inner safe
    (fun closed large old => ?_) inside).1
  obtain ⟨content, holds, recovers⟩ := safe.content
  obtain ⟨handle, after, m, triple, _⟩ := open_recovers safe wide recovers
    (fun d w image replays => ⟨content, holds, recovering_held recovers.1 image, replays⟩) closed large old
  exact ⟨_, after, triple, .inr ⟨rfl, trivial⟩⟩

theorem quiet_step {event : Event} (wide : identity.length = 16) (safe : Safe (Whole φ identity) host.store)
    (quiet : Quiet event.act) (step : Step host event host') : Safe (Whole φ identity) host'.store := by
  have kept : ∀ {act : Act} {outcome : Option (Except Error Answer × Batches)} {last : Store}, Quiet act →
      Exec device (act.perform host.db) host.store outcome last → Safe (Whole φ identity) last := by
    intro act outcome last quiet execution
    by_cases reopen : ∃ mode scratchSize, act = .openPair mode scratchSize
    · obtain ⟨mode, scratchSize, rfl⟩ := reopen
      exact open_whole wide safe execution
    · rw [quiet_still quiet (fun mode scratchSize same => reopen ⟨mode, scratchSize, same⟩) execution]
      exact safe
  cases step with
  | returned execution => exact kept quiet execution
  | restarted execution => exact kept quiet execution
  | crashed execution survives => exact booted_safe (kept quiet execution) survives

theorem quiet_run {events : List Event} (wide : identity.length = 16) (safe : Safe (Whole φ identity) host.store)
    (quiet : ∀ event ∈ events, Quiet event.act) (run : Run host events host') : Safe (Whole φ identity) host'.store := by
  induction run with
  | start => exact safe
  | step before after ih =>
      exact quiet_step wide (ih fun event member => quiet event (List.mem_append_left _ member)) (quiet _ (by simp)) after

theorem quiet_effect {content content' : Content} (quiet : Quiet act) : ¬ Effect act content content' := by
  intro effect
  cases effect <;> exact quiet

theorem quiet_sound {events : List Event} (honest : ∀ content, φ content → Honest content)
    (sound : Sound φ identity host) (quiet : ∀ event ∈ events, Quiet event.act) (run : Run host events host') :
    Sound φ identity host' :=
  run_sound sound honest (fun event member _ _ _ effect => absurd effect (quiet_effect (quiet event member))) run

theorem quiet_reopens (honest : ∀ content, φ content → Honest content) (wide : identity.length = 16)
    (safe : Safe (Whole φ identity) host.store) {next : Host} (resumed : Resumed host.store next) :
    Reopens next fun opened => ∃ content m, φ content ∧ Holding opened identity ⟨content, m, 1⟩ := by
  obtain ⟨safe, fresh⟩ := resumed_safe safe resumed
  obtain ⟨content, holds, recovers⟩ := safe.content
  refine (reopens_holding safe fresh wide recovers (honest content holds)).mono ?_
  rintro opened ⟨m, holding⟩
  exact ⟨content, m, holds, holding⟩

theorem expire_cut {cutoff scratchSize : Nat} (holding : Holding host identity v)
    {outcome : Option (Except Error Answer × Batches)} {store : Store}
    (execution : Exec device (Act.perform host.db (.expireBefore cutoff scratchSize)) host.store outcome store) :
    Safe (Whole (fun content => content = v.content ∨ content = v.content.expire cutoff) identity) store := by
  have live := holding.live
  have logged : Replays True identity (v.content.expire cutoff) (host.store.content .wal) :=
    .logged [] ⟨live.settled.logged.bytes, live.settled.logged.torn, live.settled.logged.more, live.settled.logged.fits⟩
      fun _ => .inl rfl
  have old : ∀ d, Held identity v.content d ∨ Held identity (v.content.expire cutoff) d →
      Whole (fun content => content = v.content ∨ content = v.content.expire cutoff) identity d
        (host.store.content .wal) := by
    rintro d (held | held)
    · exact ⟨_, .inl rfl, held, (live.recovers : Recovers True identity v.content _ _).2⟩
    · exact ⟨_, .inr rfl, held, logged⟩
  have safe : Safe (Whole (fun content => content = v.content ∨ content = v.content.expire cutoff) identity) host.store :=
    safe_synced live.settled.synced (old _ (.inl live.held))
  cases refusal : expireRefusal v.content v.m cutoff scratchSize with
  | some error =>
      have refused := expire_refused live.settled.serving safe refusal
      exact performs_safe refused execution
  | none =>
      by_cases all : (v.content.kept cutoff).length = v.content.segments.length
      · have large : batchScratch ≤ scratchSize := by
          unfold expireRefusal at refusal
          split at refusal
          · cases refusal
          · omega
        have nothing := expire_nothing live.settled.serving safe large all
        exact performs_safe nothing execution
      · obtain ⟨after, db', revision, performs, _⟩ := expire_live live refusal all fun d relocating =>
          old d (relocating.held live.settled.phase live.settled.slack)
        exact performs_safe performs execution

/-- The content without the segments whose timestamps are all below the cutoff. -/
structure Reduces (content : Content) (cutoff : Nat) (reduced : Content) : Prop where
  segments : reduced.segments = content.segments.filter fun segment => decide (∃ time ∈ segment.times, cutoff ≤ time)
  pending : reduced.pending = content.pending
  high : reduced.high = content.high
  floor : reduced.floor = content.floor

theorem reduces_expire {content : Content} {cutoff : Nat} (honest : Honest content) :
    Reduces content cutoff (content.expire cutoff) where
  segments := by
    refine List.filter_congr fun segment member => ?_
    have iff := @expires_iff cutoff segment (honest segment member)
    rw [Bool.eq_iff_iff, Bool.not_eq_true', decide_eq_true_iff, ← Bool.not_eq_true, iff]
    simp only [not_forall, not_lt, exists_prop]
  pending := rfl
  high := rfl
  floor := rfl

/-- A handle just opened on a pair with this content. -/
structure Stands (opened : Host) (content : Content) : Prop where
  holding : ∃ identity m, Holding opened identity ⟨content, m, 1⟩
  exposes : Exposes opened (listed content)
  status : (opened.call .getStatus).1 = .ok (.status (statusOf content))
  sequence : opened.db.sequence = content.high
  lastTime : opened.db.lastTime = content.floor

theorem holding_stands {opened : Host} {content : Content} {m : Manifests}
    (holding : Holding opened identity ⟨content, m, 1⟩) : Stands opened content where
  holding := ⟨identity, m, holding⟩
  exposes := opened_exposes holding
  status := congrArg Prod.fst (holding_status holding)
  sequence := holding.live.settled.tracks.sequence
  lastTime := holding.live.settled.tracks.lastTime

end Expire

/-- However often an expiration and the opens after it are interrupted, the first open
that completes finds all batches or all but the expired segments, and what it finds
is what every later open finds. -/
theorem retention_atomic {host : Host} {cutoff scratchSize : Nat} (reached : Reached host)
    (ready : batchReady host.db = .ok ()) :
    ∃ identity v reduced, Holding host identity v ∧ Exposes host (listed v.content) ∧ Reduces v.content cutoff reduced ∧
      ∀ outcome store, Exec device (Act.perform host.db (.expireBefore cutoff scratchSize)) host.store outcome store →
        ∀ resumed events later, Resumed store resumed → Run resumed events later → (∀ event ∈ events, Quiet event.act) →
          (∀ next, Resumed later.store next → Reopens next fun opened => Stands opened v.content ∨ Stands opened reduced) ∧
          (batchReady later.db = .ok () → ∃ content, (content = v.content ∨ content = reduced) ∧
            Exposes later (listed content) ∧ ∀ events' last, Run later events' last →
              (∀ event ∈ events', Quiet event.act) → ∀ next, Resumed last.store next →
                Reopens next fun opened => Stands opened content) := by
  obtain ⟨identity, v, holding⟩ := reached_holding reached ready
  have wide := holding.live.settled.wide
  have honest : ∀ content, content = v.content ∨ content = v.content.expire cutoff → Honest content := by
    rintro content (rfl | rfl)
    · exact holding.honest
    · exact honest_effect holding.honest (.expire cutoff scratchSize v.content)
  refine ⟨identity, v, v.content.expire cutoff, holding, holding_exposes holding, reduces_expire holding.honest,
    fun outcome store execution resumed events later resume run quiet => ?_⟩
  obtain ⟨safe, fresh⟩ := resumed_safe (expire_cut holding execution) resume
  have safe' := quiet_run wide safe quiet run
  refine ⟨fun next resume' => (quiet_reopens honest wide safe' resume').mono ?_, fun ready' => ?_⟩
  · rintro opened ⟨content, m, rfl | rfl, held⟩
    · exact .inl (holding_stands held)
    · exact .inr (holding_stands held)
  · have down : Unready resumed.db := by
      rw [fresh]
      exact .inl rfl
    have sound := quiet_sound honest (.down down wide (safe.mono fun d w => whole_leaves)) quiet run
    cases sound with
    | down unready _ _ =>
        obtain ⟨error, refused⟩ := unready_error unready
        rw [refused] at ready'
        cases ready'
    | live v' holds live =>
        have held : Holding later identity v' := ⟨live, honest _ holds⟩
        refine ⟨v'.content, holds, holding_exposes held, fun events' last run' quiet' next resume' => ?_⟩
        have one : ∀ content, content = v'.content → Honest content := fun content same => same ▸ honest _ holds
        have stored : Safe (Whole (fun content => content = v'.content) identity) later.store :=
          safe_synced live.settled.synced ⟨_, rfl, live.recovers⟩
        refine (quiet_reopens one wide (quiet_run wide stored quiet' run') resume').mono ?_
        rintro opened ⟨content, m, rfl, held⟩
        exact holding_stands held

/-- Two segments are installed and one batch is pending. -/
def layered : Host :=
  fresh.calls [.append [⟨1, 5, 7⟩] batchScratch, .checkpoint batchScratch, .append [⟨1, 200, 8⟩] batchScratch,
    .checkpoint batchScratch, .append [⟨2, 300, 9⟩] batchScratch]

theorem layered_reached : Reached layered :=
  ⟨fresh, _, fresh_created, (calls_run (.start _) _).choose_spec⟩

/-- The cutoff lies between the two segments: the call rewrites the database and drops the first. -/
theorem retention_atomic_layered : layered.db.liveBatches = 2 ∧
    (layered.call (.expireBefore 100 batchScratch)).2.db.liveBatches = 1 ∧
    ∃ identity v reduced, Holding layered identity v ∧
      Exposes layered (listed v.content) ∧ Reduces v.content 100 reduced ∧
      ∀ outcome store, Exec device (Act.perform layered.db (.expireBefore 100 batchScratch)) layered.store outcome store →
        ∀ resumed events later, Resumed store resumed → Run resumed events later → (∀ event ∈ events, Quiet event.act) →
          (∀ next, Resumed later.store next → Reopens next fun opened => Stands opened v.content ∨ Stands opened reduced) ∧
          (batchReady later.db = .ok () → ∃ content, (content = v.content ∨ content = reduced) ∧
            Exposes later (listed content) ∧ ∀ events' last, Run later events' last →
              (∀ event ∈ events', Quiet event.act) → ∀ next, Resumed last.store next →
                Reopens next fun opened => Stands opened content) :=
  ⟨by decide +kernel, by decide +kernel, retention_atomic layered_reached (by decide +kernel)⟩

end Timelite.Interrupting
