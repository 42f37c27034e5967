import Timelite.Refinement

/-!
The invariant of a host: its handle is live, or both files hold, whatever a crash
leaves of them, a content of a given family. Every step keeps it when the family
is closed under what the calls may do.
-/
namespace Timelite.Soundness
open ByteFile Program Durable Codec CodecLaws Backend BackendLaws Layout HeaderWalk WalLaws Contents Images Crashes
  Databases Calls Retaining Cursor Reader BatchApi Opening Creating Atomicity Aggregating System Refinement

section Opening
variable {P : Bytes → Bytes → Prop} {store : Store} {db : Batches} {identity : Bytes} {content : Content}
  {mode : OpenMode} {scratchSize : Nat}

/-- Open recovers the content that both files hold; disturbed, they keep holding it. -/
theorem open_recovers (safe : Safe P store) (wide : identity.length = 16)
    (recovers : Recovers True identity content (store.content .database) (store.content .wal))
    (weaken : ∀ d w, d = store.content .database ∨ Finishing identity content d → Replays True identity content w → P d w)
    (closed : db.database = false ∧ db.wal = false) (large : batchScratch ≤ scratchSize) (old : mode ≠ .createNew) :
    ∃ handle after m, Does device (Safe P) (Refused db) (batchesOpen db mode scratchSize) store (.ok (), handle)
        after ∧ Live after handle identity content m 1 ∧
      (after.content .database = store.content .database ∨ Finishing identity content (after.content .database)) ∧
      ∀ m₀, chosen (store.content .database) = some m₀ → m.state.revision ≤ m₀.state.revision + 2 := by
  obtain ⟨⟨m, stored, slack, bound⟩, replays⟩ := recovers
  obtain ⟨_, cut⟩ := replays_cut wide replays
  have able : m.state.phase ≠ 0 → m.state.revision + 2 ≤ uint64Max := fun busy => by
    have phases := (selected_bounds stored.current).phase
    have room := bound busy
    omega
  obtain ⟨after, handle, m', runs, settled, delivers, _, change⟩ := @recover_runs True P store identity content m
    safe wide stored.installed (selected_chosen stored.current) slack able (fun busy _ => bound busy)
    (fun _ _ => stored.guarded) replays fun d w database wal => by
      refine weaken d w ?_ ?_
      · exact database.imp_right fun finishing => finishing.2 trivial
      · rcases wal with rfl | rfl
        · exact replays
        · exact .logged [] cut fun _ => .inl rfl
  refine ⟨handle, after, m', open_does safe closed large old stored.installed.pair wide (does_opened runs),
    ⟨settled, ?_, delivers⟩, ?_, fun m₀ found => ?_⟩
  · rcases change with ⟨_, rfl, same⟩ | ⟨_, stored', _⟩
    · rw [same]
      exact stored
    · exact stored'
  · exact change.imp (fun idle => idle.2.2) fun busy => busy.2.2.2.2 trivial
  · cases found.symm.trans (selected_chosen stored.current)
    rcases change with ⟨_, rfl, _⟩ | ⟨_, _, _, most⟩ <;> omega

-- What recovery leaves on the way holds what it found.
theorem recovering_held {d before : Bytes} (held : Held identity content before)
    (image : d = before ∨ Finishing identity content d) : Held identity content d := by
  rcases image with rfl | finishing
  · exact held
  · exact finishing.held

/-- A few bytes behind the frames of the WAL make open fail without an effect. -/
theorem open_stuck {tail : Bytes} (safe : Safe P store) (wide : identity.length = 16)
    (held : Held identity content (store.content .database))
    (logged : Logged (store.content .wal) identity content tail) (stuck : ¬ Readable tail)
    (closed : db.database = false ∧ db.wal = false) (large : batchScratch ≤ scratchSize) (old : mode ≠ .createNew) :
    Does device (Safe P) (Refused db) (batchesOpen db mode scratchSize) store (.error .invalidDatabase, db) store := by
  obtain ⟨m, stored, slack, bound⟩ := held
  have ran := validate_stuck wide stored.installed (selected_chosen stored.current) logged stuck
  exact open_does safe closed large old stored.installed.pair wide (does_unreadable safe ran)

end Opening

section Hosts
variable {φ : Content → Prop} {identity : Bytes} {host host' : Host} {act : Act}

/-- A handle that no call but open and close accepts. -/
def Unready (db : Batches) : Prop := db.wal = false ∨ db.failed = true

inductive Sound (φ : Content → Prop) (identity : Bytes) (host : Host) : Prop where
  | live (v : View) (holds : φ v.content)
      (live : Live host.store host.db identity v.content v.m v.position) : Sound φ identity host
  | down (unready : Unready host.db) (wide : identity.length = 16) (safe : Safe (Leaves φ identity) host.store) :
      Sound φ identity host

theorem Sound.wide (sound : Sound φ identity host) : identity.length = 16 := by
  cases sound with
  | live v holds live => exact live.settled.wide
  | down unready wide safe => exact wide

/-- What a crash leaves is still sound. -/
theorem booted_safe {P : Bytes → Bytes → Prop} {store : Store} {d w : Bytes} (safe : Safe P store)
    (survives : Surviving store d w) : Safe P (booted store d w) :=
  safe_synced ⟨rfl, rfl⟩ (safe.images d w survives)

theorem unready_error {db : Batches} (unready : Unready db) : ∃ error, batchReady db = .error error := by
  unfold batchReady
  rcases unready with closed | failed
  · exact ⟨_, if_pos closed⟩
  · by_cases closed : db.wal = false
    · exact ⟨_, if_pos closed⟩
    · exact ⟨_, (if_neg closed).trans (if_pos failed)⟩

-- On such a handle every other call is refused without a request.
theorem refused_perform {db : Batches} {error : Error} (refused : batchReady db = .error error) (other : act ≠ .close)
    (reopen : ∀ mode scratchSize, act ≠ .openPair mode scratchSize) : act.perform db = .done (.error error, db) := by
  have arguments : ∀ scratchSize, readArguments db scratchSize = .error error := fun scratchSize => by
    rw [readArguments, refused]
  cases act with
  | openPair mode scratchSize => exact absurd rfl (reopen mode scratchSize)
  | close => exact absurd rfl other
  | append records scratchSize =>
      have call : batchesAppend db records scratchSize = refuse db error := by rw [batchesAppend, refused]
      rw [Act.perform, call]
      rfl
  | checkpoint scratchSize =>
      have call : batchesCheckpoint db scratchSize = refuse db error := by rw [batchesCheckpoint, arguments]
      rw [Act.perform, call]
      rfl
  | expireBefore cutoff scratchSize =>
      have call : batchesExpireBefore db cutoff scratchSize = refuse db error := by
        rw [batchesExpireBefore, arguments]
      rw [Act.perform, call]
      rfl
  | next capacity scratchSize =>
      have call : batchesNext db capacity scratchSize = refuse db error := by rw [batchesNext, arguments]
      rw [Act.perform, call]
      rfl
  | nextRange range capacity scratchSize =>
      have call : batchesNextRange db range capacity scratchSize = refuse db error := by
        rw [batchesNextRange, refused]
      rw [Act.perform, call]
      rfl
  | seek from_us scratchSize =>
      have call : batchesSeek db from_us scratchSize = refuse db error := by rw [batchesSeek, arguments]
      rw [Act.perform, call]
      rfl
  | aggregateRange range scratchSize =>
      have call : batchesAggregateRange db range scratchSize = refuse db error := by
        rw [batchesAggregateRange, refused]
      rw [Act.perform, call]
      rfl
  | rewind =>
      have call : batchesRewind db = (.error error, db) := by rw [batchesRewind, refused]
      rw [Act.perform, call]
      rfl
  | getStatus =>
      have call : batchesGetStatus db = .error error := by rw [batchesGetStatus, refused]
      rw [Act.perform, call]
      rfl

theorem unready_refused {db : Batches} (unready : Unready db) (other : act ≠ .close)
    (reopen : ∀ mode scratchSize, act ≠ .openPair mode scratchSize) :
    ∃ error, act.perform db = .done (.error error, db) := by
  obtain ⟨error, refused⟩ := unready_error unready
  exact ⟨error, refused_perform refused other reopen⟩

theorem exec_answering {α : Type} {answer : α → Answer} {call : Op α} {store last : Store}
    {outcome : Option (Except Error Answer × Batches)}
    (execution : Exec device (answering answer call) store outcome last) :
    ∃ inner, Exec device call store inner last ∧
      outcome = inner.map fun result => (result.1.map answer, result.2) := by
  rcases exec_bind device execution with ⟨rfl, inside⟩ | ⟨value, middle, front, tail⟩
  · exact ⟨none, inside, rfl⟩
  · cases tail with
    | done => exact ⟨some value, front, rfl⟩
    | stop => exact ⟨none, exec_stopped device front, rfl⟩

theorem quits_ite {α : Type} {safe : Store → Prop} {failed : α → Prop} {condition : Prop} [Decidable condition]
    {yes no : Prog Reply α} {store : Store} (first : Quits device safe failed yes store)
    (second : Quits device safe failed no store) :
    Quits device safe failed (if condition then yes else no) store := by
  split
  · exact first
  · exact second

-- Closing touches no file, and leaves an initialised handle.
theorem quits_close (db : Batches) (store : Store) :
    Quits device (fun state => state = store) (fun result => result.2 = batchesInit ∨ result.2 = db ∧ db.wal = false)
      (batchesClose db) store := by
  have close : ∀ (file : File) (next : Reply (.close file) → Op Unit),
      (∀ reply, Quits device (fun state => state = store)
        (fun result => result.2 = batchesInit ∨ result.2 = db ∧ db.wal = false) (next reply) store) →
      Quits device (fun state => state = store)
        (fun result => result.2 = batchesInit ∨ result.2 = db ∧ db.wal = false) (.ask (.close file) next) store := by
    intro file next rest
    refine quits_ask rfl (rest _) fun reply middle fault => ?_
    cases fault with
    | before call store code known => exact rest _
  have done : ∀ result : Except Error Unit, Quits device (fun state => state = store)
      (fun result => result.2 = batchesInit ∨ result.2 = db ∧ db.wal = false) (.done (result, batchesInit) : Op Unit)
      store := fun result => quits_done device rfl (.inl rfl)
  by_cases closed : db.database = false ∧ db.wal = false
  · have refused : batchesClose db = refuse db (.errno .ebadf) := if_pos closed
    rw [refused]
    exact quits_done device rfl (.inr ⟨rfl, closed.2⟩)
  · unfold batchesClose
    rw [if_neg closed]
    refine quits_ite (close _ _ fun reply => ?_) (quits_ite (close _ _ fun reply => ?_) (done _))
    · cases reply with
      | ok value => exact quits_ite (close _ _ fun last => (by cases last <;> exact done _)) (done _)
      | error code => exact quits_ite (close _ _ fun last => (by cases last <;> exact done _)) (done _)
    · cases reply <;> exact done _

/-- What open can have done, where its undisturbed run either fails or leaves a good handle. -/
theorem open_outcome {P : Bytes → Bytes → Prop} {good : Store → Batches → Prop} {store last : Store} {db : Batches}
    {mode : OpenMode} {scratchSize : Nat} {outcome : Option (Except Error Unit × Batches)} (safe : Safe P store)
    (decides : db.database = false ∧ db.wal = false → batchScratch ≤ scratchSize → mode ≠ .createNew → ∃ result after,
      Does device (Safe P) (Refused db) (batchesOpen db mode scratchSize) store result after ∧
        ((∃ error, result = (.error error, db)) ∨ result.1 = .ok () ∧ good after result.2))
    (execution : Exec device (batchesOpen db mode scratchSize) store outcome last) :
    Safe P last ∧ ∀ result db', outcome = some (result, db') →
      (∃ error, result = .error error ∧ db' = db) ∨ result = .ok () ∧ good last db' := by
  have refusal : ∀ {error : Error}, batchesOpen db mode scratchSize = refuse db error → Safe P last ∧
      ∀ result db', outcome = some (result, db') →
        (∃ error, result = .error error ∧ db' = db) ∨ result = .ok () ∧ good last db' := by
    intro error refused
    rw [refused] at execution
    obtain ⟨rfl, same⟩ := exec_done device execution
    refine ⟨safe, fun result db' found => .inl ⟨error, ?_⟩⟩
    have equal := same _ found
    exact ⟨congrArg Prod.fst equal, congrArg Prod.snd equal⟩
  by_cases closed : db.database = false ∧ db.wal = false
  · by_cases large : batchScratch ≤ scratchSize
    · have decided : ∃ result after, Does device (Safe P) (Refused db) (batchesOpen db mode scratchSize) store result after ∧
          ((∃ error, result = (.error error, db)) ∨ result.1 = .ok () ∧ good after result.2) := by
        by_cases new : mode = .createNew
        · rw [new]
          exact ⟨_, store, open_created safe closed large, .inl ⟨_, rfl⟩⟩
        · exact decides closed large new
      obtain ⟨value, after, triple, shape⟩ := decided
      obtain ⟨still, results⟩ := triple.sound execution
      refine ⟨still, fun result db' found => ?_⟩
      rcases results _ found with ⟨rfl, rfl⟩ | ⟨code, same⟩
      · rcases shape with ⟨error, same⟩ | ⟨success, opened⟩
        · exact .inl ⟨error, congrArg Prod.fst same, congrArg Prod.snd same⟩
        · exact .inr ⟨success, opened⟩
      · exact .inl ⟨code, congrArg Prod.fst same, congrArg Prod.snd same⟩
    · exact refusal (open_small closed (by omega))
  · refine refusal (open_held ?_)
    rcases Bool.eq_false_or_eq_true db.database with yes | no
    · exact .inl yes
    · rcases Bool.eq_false_or_eq_true db.wal with yes' | no'
      · exact .inr yes'
      · exact absurd ⟨no, no'⟩ closed

/-- The handle is good, or no call but open and close accepts it and every crash leaves `P`. -/
inductive Upheld (P : Bytes → Bytes → Prop) (good : Host → Prop) (host : Host) : Prop where
  | up (here : good host) : Upheld P good host
  | down (unready : Unready host.db) (safe : Safe P host.store) : Upheld P good host

/-- What keeps a host upheld: calls that take a good handle to a good one, and an open that
finds one or fails. -/
structure Upholds (P : Bytes → Bytes → Prop) (good : Host → Prop) (allowed : Host → Act → Prop) : Prop where
  safe : ∀ {host}, good host → Safe P host.store
  performs : ∀ {host act}, good host → allowed host act → act ≠ .close → ∃ result db' after,
    Performs P (act.perform host.db) host.db host.store (result, db') after ∧ good ⟨after, db'⟩
  opens : ∀ {store db mode scratchSize}, Safe P store → db.database = false ∧ db.wal = false → batchScratch ≤ scratchSize →
    mode ≠ .createNew → ∃ result after, Does device (Safe P) (Refused db) (batchesOpen db mode scratchSize) store result after ∧
      ((∃ error, result = (.error error, db)) ∨ result.1 = .ok () ∧ good ⟨after, result.2⟩)

section Upholding
variable {P : Bytes → Bytes → Prop} {good : Host → Prop} {allowed : Host → Act → Prop}

theorem Upheld.safe (upheld : Upheld P good host) (rule : Upholds P good allowed) : Safe P host.store := by
  cases upheld with
  | up here => exact rule.safe here
  | down unready safe => exact safe

theorem upheld_ready (upheld : Upheld P good host) (ready : batchReady host.db = .ok ()) : good host := by
  cases upheld with
  | up here => exact here
  | down unready safe =>
      obtain ⟨error, refused⟩ := unready_error unready
      rw [refused] at ready
      cases ready

/-- However a call goes, the host stays upheld. -/
theorem upheld_exec {store : Store} {outcome : Option (Except Error Answer × Batches)} (rule : Upholds P good allowed)
    (upheld : Upheld P good host) (may : allowed host act)
    (execution : Exec device (act.perform host.db) host.store outcome store) :
    Safe P store ∧ ∀ result db', outcome = some (result, db') → Upheld P good ⟨store, db'⟩ := by
  by_cases close : act = .close
  · subst close
    obtain ⟨inner, inside, shape⟩ := exec_answering execution
    obtain ⟨same, results⟩ := quits_close host.db host.store _ _ inside
    have safe := same ▸ upheld.safe rule
    refine ⟨safe, fun result db' found => .down ?_ safe⟩
    cases inner with
    | none =>
        rw [shape] at found
        cases found
    | some value =>
        rw [shape] at found
        have handle : value.2 = db' := congrArg Prod.snd (Option.some.inj found)
        rw [← handle]
        rcases results value rfl with fresh | ⟨kept, bare⟩
        · rw [fresh]
          exact .inl rfl
        · rw [kept]
          exact .inl bare
  cases upheld with
  | up here =>
      obtain ⟨value, db', after, performs, there⟩ := rule.performs here may close
      obtain ⟨safe, results⟩ := performs.2 _ _ execution
      refine ⟨safe, fun result handle found => ?_⟩
      rcases results _ found with ⟨same, rfl⟩ | ⟨code, same, rfl⟩ | ⟨code, failed, same, poisoned⟩
      · cases same
        exact .up there
      · cases same
        exact .up here
      · cases same
        exact .down (.inr poisoned) safe
  | down unready safe =>
      by_cases reopen : ∃ mode scratchSize, act = .openPair mode scratchSize
      · obtain ⟨mode, scratchSize, rfl⟩ := reopen
        obtain ⟨inner, inside, shape⟩ := exec_answering execution
        obtain ⟨still, results⟩ := @open_outcome P (fun after handle => good ⟨after, handle⟩) host.store store host.db mode
          scratchSize inner safe (fun closed large old => rule.opens safe closed large old) inside
        refine ⟨still, fun result db' found => ?_⟩
        cases inner with
        | none =>
            rw [shape] at found
            cases found
        | some value =>
            rw [shape] at found
            have handle : value.2 = db' := congrArg Prod.snd (Option.some.inj found)
            rw [← handle]
            rcases results value.1 value.2 rfl with ⟨error, _, same⟩ | ⟨_, there⟩
            · exact .down (same ▸ unready) still
            · exact .up there
      · obtain ⟨error, call⟩ := unready_refused unready close fun mode scratchSize same => reopen ⟨mode, scratchSize, same⟩
        rw [call] at execution
        obtain ⟨rfl, same⟩ := exec_done device execution
        refine ⟨safe, fun result db' found => ?_⟩
        cases same _ found
        exact .down unready safe

theorem upheld_step {event : Event} (rule : Upholds P good allowed) (upheld : Upheld P good host)
    (may : allowed host event.act) (step : Step host event host') : Upheld P good host' := by
  cases step with
  | returned execution => exact (upheld_exec rule upheld may execution).2 _ _ rfl
  | restarted execution => exact .down (.inl rfl) (upheld_exec rule upheld may execution).1
  | crashed execution survives => exact .down (.inl rfl) (booted_safe (upheld_exec rule upheld may execution).1 survives)

theorem upheld_run {events : List Event} (rule : Upholds P good fun _ _ => True) (upheld : Upheld P good host)
    (run : Run host events host') : Upheld P good host' := by
  induction run with
  | start => exact upheld
  | step before after ih => exact upheld_step rule ih trivial after

end Upholding

/-- Open failed and left the handle, or opened a content of the family. -/
def Opened (φ : Content → Prop) (identity : Bytes) (db : Batches) (last : Store) (result : Except Error Unit)
    (db' : Batches) : Prop :=
  (∃ error, result = .error error ∧ db' = db) ∨
    ∃ v : View, φ v.content ∧ v.position = 1 ∧ result = .ok () ∧ Live last db' identity v.content v.m v.position

theorem sound_opens {store : Store} {db : Batches} {mode : OpenMode} {scratchSize : Nat} (wide : identity.length = 16)
    (safe : Safe (Leaves φ identity) store) (closed : db.database = false ∧ db.wal = false)
    (large : batchScratch ≤ scratchSize) (old : mode ≠ .createNew) :
    ∃ result after, Does device (Safe (Leaves φ identity)) (Refused db) (batchesOpen db mode scratchSize) store result after ∧
      ((∃ error, result = (.error error, db)) ∨ result.1 = .ok () ∧
        ∃ v : View, φ v.content ∧ v.position = 1 ∧ Live after result.2 identity v.content v.m v.position) := by
  obtain ⟨content, holds, held, replays⟩ := safe.content
  rcases replays_cases replays with clean | ⟨tail, logged, stuck⟩
  · obtain ⟨handle, after, m, triple, live, _⟩ := open_recovers safe wide ⟨held, clean⟩
      (fun d w image replays => leaves_held holds (recovering_held held image) replays) closed large old
    exact ⟨_, after, triple, .inr ⟨rfl, ⟨content, m, 1⟩, holds, rfl, live⟩⟩
  · exact ⟨_, store, open_stuck safe wide held logged stuck closed large old, .inl ⟨_, rfl⟩⟩

/-- Open on a host that holds a content keeps it, and opens it. -/
theorem open_sound {store last : Store} {db : Batches} {mode : OpenMode} {scratchSize : Nat}
    {outcome : Option (Except Error Unit × Batches)} (wide : identity.length = 16)
    (safe : Safe (Leaves φ identity) store)
    (execution : Exec device (batchesOpen db mode scratchSize) store outcome last) :
    Safe (Leaves φ identity) last ∧ ∀ result db', outcome = some (result, db') →
      Opened φ identity db last result db' := by
  obtain ⟨still, results⟩ := @open_outcome (Leaves φ identity)
    (fun after handle => ∃ v : View, φ v.content ∧ v.position = 1 ∧ Live after handle identity v.content v.m v.position)
    store last db mode scratchSize outcome safe (sound_opens wide safe) execution
  refine ⟨still, fun result db' found => ?_⟩
  rcases results result db' found with failed | ⟨success, v, holds, start, live⟩
  · exact .inl failed
  · exact .inr ⟨v, holds, start, success, live⟩

/-- What the call can make of the content of a live host stays in the family. -/
def Keeps (φ : Content → Prop) (identity : Bytes) (host : Host) (act : Act) : Prop :=
  ∀ v : View, φ v.content → Live host.store host.db identity v.content v.m v.position →
    ∀ content', Effect act v.content content' → φ content'

/-- A family of honest contents is upheld by the calls that stay in it. -/
theorem sound_upholds (wide : identity.length = 16) (honest : ∀ content, φ content → Honest content) :
    Upholds (Leaves φ identity)
      (fun host => ∃ v : View, φ v.content ∧ Live host.store host.db identity v.content v.m v.position)
      (Keeps φ identity) where
  safe := fun ⟨v, holds, live⟩ => live_safe live holds
  performs := by
    rintro host act ⟨v, holds, live⟩ keeps other
    obtain ⟨result, v', db', after, performs, answers, live'⟩ :=
      live_performs live (honest _ holds) holds (keeps v holds live) other
    refine ⟨result, db', after, performs, v', ?_, live'⟩
    rcases answers_effect answers with same | effect
    · rw [same]
      exact holds
    · exact keeps v holds live _ effect
  opens := by
    intro store db mode scratchSize safe closed large old
    obtain ⟨result, after, triple, shape⟩ := @sound_opens φ identity store db mode scratchSize wide safe closed large old
    refine ⟨result, after, triple, shape.imp_right fun opened => ?_⟩
    obtain ⟨success, v, holds, _, live⟩ := opened
    exact ⟨success, v, holds, live⟩

theorem Sound.upheld (sound : Sound φ identity host) : Upheld (Leaves φ identity)
    (fun host => ∃ v : View, φ v.content ∧ Live host.store host.db identity v.content v.m v.position) host := by
  cases sound with
  | live v holds live => exact .up ⟨v, holds, live⟩
  | down unready wide safe => exact .down unready safe

/-- What a call that returns can have done. -/
inductive Returned (φ : Content → Prop) (identity : Bytes) (host : Host) (act : Act) (result : Except Error Answer)
    (host' : Host) : Prop where
  | answered (v v' : View) (holds : φ v.content) (holds' : φ v'.content)
      (live : Live host.store host.db identity v.content v.m v.position) (answers : Answers act v result v')
      (live' : Live host'.store host'.db identity v'.content v'.m v'.position) : Returned φ identity host act result host'
  | failed (v : View) (code : Errno) (holds : φ v.content)
      (live : Live host.store host.db identity v.content v.m v.position) (refused : result = .error (.errno code))
      (same : host' = host) : Returned φ identity host act result host'
  | poisoned (v : View) (code : Errno) (holds : φ v.content)
      (live : Live host.store host.db identity v.content v.m v.position) (refused : result = .error (.errno code))
      (unready : host'.db.failed = true) (safe : Safe (Leaves φ identity) host'.store) :
      Returned φ identity host act result host'
  | closed (close : act = .close) (same : host'.store = host.store) (unready : Unready host'.db) :
      Returned φ identity host act result host'
  | opened (v : View) (mode : OpenMode) (scratchSize : Nat) (reopened : act = .openPair mode scratchSize)
      (unready : Unready host.db) (holds : φ v.content) (start : v.position = 1) (success : result = .ok .none)
      (live : Live host'.store host'.db identity v.content v.m v.position) : Returned φ identity host act result host'
  | refused (error : Error) (unready : Unready host.db) (refusal : result = .error error) (same : host'.db = host.db)
      (safe : Safe (Leaves φ identity) host'.store) : Returned φ identity host act result host'

theorem returned_cases {result : Except Error Answer} (sound : Sound φ identity host)
    (honest : ∀ content, φ content → Honest content)
    (keeps : Keeps φ identity host act)
    (execution : Exec device (act.perform host.db) host.store (some (result, host'.db)) host'.store) :
    Returned φ identity host act result host' := by
  by_cases close : act = .close
  · subst close
    obtain ⟨inner, inside, shape⟩ := exec_answering execution
    cases inner with
    | none => cases shape
    | some value =>
        obtain ⟨same, results⟩ := quits_close host.db host.store _ _ inside
        have handle : host'.db = value.2 := congrArg (fun outcome => (outcome.map Prod.snd).getD host'.db) shape
        refine .closed rfl same ?_
        rcases results value rfl with fresh | ⟨kept, bare⟩
        · rw [handle, fresh]
          exact .inl rfl
        · rw [handle, kept]
          exact .inl bare
  cases sound with
  | live v holds live =>
      obtain ⟨value, v', db', after, performs, answers, live'⟩ :=
        live_performs live (honest _ holds) holds (keeps v holds live) close
      obtain ⟨safe, results⟩ := performs.2 _ _ execution
      rcases results _ rfl with ⟨same, ended⟩ | ⟨code, same, ended⟩ | ⟨code, db'', same, poisoned⟩
      · cases same
        have holds' : φ v'.content := by
          rcases answers_effect answers with kept | effect
          · rw [kept]
            exact holds
          · exact keeps v holds live _ effect
        exact .answered v v' holds holds' live answers (ended ▸ live')
      · have handle : host'.db = host.db := congrArg Prod.snd same
        refine .failed v code holds live (congrArg Prod.fst same) ?_
        obtain ⟨store', db'⟩ := host'
        obtain ⟨store, db⟩ := host
        simp only at handle ended
        rw [handle, ended]
      · have handle : host'.db = db'' := congrArg Prod.snd same
        exact .poisoned v code holds live (congrArg Prod.fst same) (handle ▸ poisoned) safe
  | down unready wide safe =>
      by_cases reopen : ∃ mode scratchSize, act = .openPair mode scratchSize
      · obtain ⟨mode, scratchSize, rfl⟩ := reopen
        obtain ⟨inner, inside, shape⟩ := exec_answering execution
        cases inner with
        | none => cases shape
        | some value =>
            obtain ⟨safe', results⟩ := open_sound wide safe inside
            have equal := Option.some.inj shape
            have handle : host'.db = value.2 := congrArg Prod.snd equal
            have answer : result = value.1.map fun _ => .none := congrArg Prod.fst equal
            rcases results value.1 value.2 rfl with ⟨error, failed, same⟩ | ⟨v, holds, start, success, live⟩
            · refine .refused error unready ?_ (handle.trans same) safe'
              rw [answer, failed]
              rfl
            · refine .opened v mode scratchSize rfl unready holds start ?_ (handle ▸ live)
              rw [answer, success]
              rfl
      · obtain ⟨error, call⟩ := unready_refused unready close fun mode scratchSize same =>
          reopen ⟨mode, scratchSize, same⟩
        rw [call] at execution
        obtain ⟨same, results⟩ := exec_done device execution
        have equal := results _ rfl
        refine .refused error unready (congrArg Prod.fst equal) (congrArg Prod.snd equal) ?_
        rw [same]
        exact safe

-- Where a call is cut short, the files still hold a content of the family.
theorem interrupted_safe {last : Store} (sound : Sound φ identity host) (honest : ∀ content, φ content → Honest content)
    (keeps : Keeps φ identity host act) (execution : Exec device (act.perform host.db) host.store none last) :
    Safe (Leaves φ identity) last :=
  (upheld_exec (sound_upholds sound.wide honest) sound.upheld keeps execution).1

/-- Every step keeps a host sound. -/
theorem step_sound {event : Event} (sound : Sound φ identity host) (honest : ∀ content, φ content → Honest content)
    (keeps : Keeps φ identity host event.act)
    (step : Step host event host') : Sound φ identity host' := by
  have upheld := upheld_step (sound_upholds sound.wide honest) sound.upheld keeps step
  cases upheld with
  | up here =>
      obtain ⟨v, holds, live⟩ := here
      exact .live v holds live
  | down unready safe => exact .down unready sound.wide safe

theorem run_sound {events : List Event} (sound : Sound φ identity host) (honest : ∀ content, φ content → Honest content)
    (closed : ∀ event ∈ events, ∀ content content', φ content → Effect event.act content content' → φ content')
    (run : Run host events host') : Sound φ identity host' := by
  induction run with
  | start => exact sound
  | step before after ih =>
      exact step_sound (ih fun event member => closed event (List.mem_append_left _ member)) honest
        (fun v holds _ content' => closed _ (by simp) v.content content' holds) after

theorem created_bare (created : Created host) :
    ∃ identity, Live host.store host.db identity .empty createdManifests 1 ∧
      host.store.content .database = createdDatabase identity := by
  obtain ⟨db, store, scratchSize, wide, execution⟩ := created
  obtain ⟨settled, same, delivers⟩ := created_by wide execution
  have stored : Stored (host.store.content .database) store.entropy .empty createdManifests := by
    rw [same]
    exact created_stored wide
  exact ⟨store.entropy, ⟨settled, stored, delivers⟩, same⟩

theorem created_live (created : Created host) :
    ∃ identity, Live host.store host.db identity .empty createdManifests 1 := by
  obtain ⟨identity, live, _⟩ := created_bare created
  exact ⟨identity, live⟩

theorem honest_empty : Honest .empty := fun segment member => by cases member

/-- Whatever happened since the creation, the host holds honest content. -/
theorem reachable_sound {events : List Event} {start : Host} (created : Created start) (run : Run start events host) :
    ∃ identity, Sound Honest identity host := by
  obtain ⟨identity, live⟩ := created_live created
  refine ⟨identity, run_sound (.live ⟨.empty, createdManifests, 1⟩ honest_empty live) (fun _ honest => honest)
    (fun event _ content content' honest effect => honest_effect honest effect) run⟩

end Hosts

end Timelite.Soundness
