import Timelite.Requesting
import Timelite.Soundness

/-!
Several processes on one pair of paths. The backend calls of all of them
interleave one by one. A file is created at most once, the lock of the database
has one owner until that owner closes the file, and each process asks as the
calls of the library do.
-/
namespace Timelite.Owning
open ByteFile Program Durable Codec Backend Reader Retention BatchApi System Requesting

/-- What a process holds, and what its current call has done. -/
structure Hold where
  held : File → Bool
  locked : Bool
  -- The call works on a closed handle.
  closed : Bool
  -- Files that this call has created exclusively, and pair headers that it has asked to write.
  made : File → Bool
  initialised : File → Bool

def Hold.none : Hold := ⟨fun _ => false, false, true, fun _ => false, fun _ => false⟩

/-- The bytes `create_header` writes. -/
def pairBytes (identity : Bytes) : File → Bytes
  | .database => encodePair databaseMagic identity ++ encodeManifest 0 dataStart 0 0 0 ++ List.replicate 64 0
  | .wal => encodePair walMagic identity

def permits (hold : Hold) : Call → Prop
  | .open file => hold.closed = true ∧ hold.held file = false
  | .create file => hold.closed = true ∧ hold.held file = false ∧ hold.made file = false
  | .lock file => hold.closed = true ∧ file = .database ∧ hold.held .database = true ∧ hold.locked = false
  | .identity => True
  | .read file _ _ | .size file | .truncate file _ | .sync file | .provision file =>
      hold.locked = true ∧ hold.held file = true
  | .write file offset bytes =>
      hold.locked = true ∧ hold.held file = true ∧ (offset < 32 → offset = 0 ∧ (∃ identity, bytes = pairBytes identity file) ∧
        hold.made .database = true ∧ hold.made .wal = true ∧ hold.initialised file = false)
  | .close file => hold.held file = true

def Hold.after (hold : Hold) : (call : Call) → Reply call → Hold
  | .open file, .ok _ => { hold with held := Function.update hold.held file true }
  | .create file, .ok _ =>
      { hold with held := Function.update hold.held file true, made := Function.update hold.made file true }
  | .lock _, .ok _ => { hold with locked := true }
  | .write file offset _, _ =>
      if offset < 32 then { hold with initialised := Function.update hold.initialised file true } else hold
  | .close file, _ =>
      { hold with held := Function.update hold.held file false, locked := hold.locked && decide (file = .wal) }
  | _, _ => hold

/-- How one process asks. -/
def owning : Discipline Reply Hold := ⟨permits, Hold.after⟩

section Conformance
variable {hold : Hold} {db : Batches}

/-- Between two calls the handle stands for what the process holds. -/
structure Rests (hold : Hold) (db : Batches) : Prop where
  database : hold.held .database = db.database
  wal : hold.held .wal = db.database
  locked : hold.locked = db.database
  usable : db.database = true → Usable db
  both : db.wal = db.database

/-- A process inside open or after it, with both files. -/
structure Owns (hold : Hold) : Prop where
  database : hold.held .database = true
  wal : hold.held .wal = true
  locked : hold.locked = true

theorem plain_stays (owns : Owns hold) {call : Call} (plain : Plain call) :
    owning.permits hold call ∧ ∀ reply, owning.next hold call reply = hold := by
  have held : ∀ file, hold.held file = true := by
    intro file
    cases file with
    | database => exact owns.database
    | wal => exact owns.wal
  cases call with
  | read file offset length => exact ⟨⟨owns.locked, held file⟩, fun reply => rfl⟩
  | size file => exact ⟨⟨owns.locked, held file⟩, fun reply => rfl⟩
  | truncate file size => exact ⟨⟨owns.locked, held file⟩, fun reply => rfl⟩
  | sync file => exact ⟨⟨owns.locked, held file⟩, fun reply => rfl⟩
  | provision file => exact ⟨⟨owns.locked, held file⟩, fun reply => rfl⟩
  | write file offset bytes =>
      have behind : 32 ≤ offset := plain
      exact ⟨⟨owns.locked, held file, fun below => by omega⟩, fun reply => if_neg (by omega)⟩
  | «open» file => cases plain
  | create file => cases plain
  | lock file => cases plain
  | identity => cases plain
  | close file => cases plain

theorem asks_owning {α : Type} {holds : α → Prop} {program : Io α} (asks : Asks Plain holds program) (owns : Owns hold) :
    Prog.Follows owning (fun hold' result => hold' = hold ∧ ∀ value, result = .ok value → holds value) hold program :=
  follows_still asks.follows fun _ plain => plain_stays owns plain

/-- At the start of a call on a closed handle. -/
structure Fresh (hold : Hold) : Prop where
  held : ∀ file, hold.held file = false
  locked : hold.locked = false
  closed : hold.closed = true
  made : ∀ file, hold.made file = false
  initialised : ∀ file, hold.initialised file = false

/-- After the part of open that opens or creates the files. -/
structure Acquired (hold : Hold) (result : Except Error Bool × Owned) : Prop where
  closed : hold.closed = true
  database : hold.held .database = result.2.database
  wal : hold.held .wal = result.2.wal
  unlocked : result.2.database = false → hold.locked = false
  created : result.1 = .ok true → Owns hold
  found : result.1 = .ok false → result.2 = ⟨true, false⟩ ∧ hold.locked = false

-- The two headers are asked for once each.
theorem create_headers_follow {identity : Bytes} (owns : Owns hold) (made : ∀ file, hold.made file = true)
    (initialised : ∀ file, hold.initialised file = false) :
    Prog.Follows owning (fun hold' _ => hold'.closed = hold.closed ∧ Owns hold') hold (createHeaders identity) := by
  have header : ∀ {next : Hold} (file : File), Owns next → (∀ file, next.made file = true) → next.initialised file = false →
      Prog.Follows owning (fun hold' _ =>
        hold' = { next with initialised := Function.update next.initialised file true }) next
        (writeExact file 0 (pairBytes identity file)) := by
    intro next file owns made fresh
    have held : next.held file = true := by
      cases file with
      | database => exact owns.database
      | wal => exact owns.wal
    refine ⟨⟨owns.locked, held, fun _ => ⟨rfl, ⟨identity, rfl⟩, made _, made _, fresh⟩⟩, fun reply => ?_⟩
    cases reply with
    | error code => rfl
    | ok count =>
        change Prog.Follows owning _ _ (Io.require (count = (pairBytes identity file).length) (.errno .eio))
        unfold Io.require
        split <;> rfl
  refine follows_bind (header .database owns made (initialised _)) fun hold' result same => ?_
  subst same
  cases result with
  | error error => exact ⟨rfl, owns.database, owns.wal, owns.locked⟩
  | ok done =>
      have still : Owns { hold with initialised := Function.update hold.initialised .database true } :=
        ⟨owns.database, owns.wal, owns.locked⟩
      refine follows_mono (header .wal still made (by simp [Function.update, initialised])) fun hold' _ same => ?_
      subst same
      exact ⟨rfl, owns.database, owns.wal, owns.locked⟩

theorem create_follows (fresh : Fresh hold) (mode : OpenMode) :
    Prog.Follows owning Acquired hold (createPair mode) := by
  have held := fresh.held
  have made := fresh.made
  have initialised := fresh.initialised
  have nothing : ∀ error, Acquired hold (.error error, ⟨false, false⟩) := fun error =>
    ⟨fresh.closed, held _, held _, fun _ => fresh.locked, fun new => (by cases new), fun old => (by cases old)⟩
  refine ⟨⟨fresh.closed, held _⟩, fun reply => ?_⟩
  cases reply with
  | ok opened =>
      refine ⟨fresh.closed, ?_, ?_, fun _ => fresh.locked, fun new => (by cases new), fun old => (by cases old)⟩
      · simp [owning, Hold.after, Function.update, held]
      · simp [owning, Hold.after, Function.update]
  | error code =>
      simp only
      split
      · exact nothing _
      refine ⟨trivial, fun reply => ?_⟩
      cases reply with
      | error code => exact nothing _
      | ok identity =>
          refine ⟨⟨fresh.closed, held _, made _⟩, fun reply => ?_⟩
          cases reply with
          | error code =>
              simp only
              split
              · refine ⟨⟨fresh.closed, held _⟩, fun reply => ?_⟩
                cases reply with
                | error code => exact nothing _
                | ok opened =>
                    refine ⟨fresh.closed, ?_, ?_, fun none => (by cases none), fun new => (by cases new),
                      fun _ => ⟨rfl, fresh.locked⟩⟩
                    · simp [owning, Hold.after, Function.update]
                    · simp [owning, Hold.after, Function.update, held]
              · exact nothing _
          | ok created =>
              refine ⟨⟨fresh.closed, rfl, ?_, fresh.locked⟩, fun reply => ?_⟩
              · simp [owning, Hold.after, Function.update]
              have alone : ∀ {next : Hold} error, next.closed = true → next.held .database = true → next.held .wal = false →
                  Acquired next (.error error, ⟨true, false⟩) := fun error closed database wal =>
                ⟨closed, database, wal, fun none => (by cases none), fun new => (by cases new), fun old => (by cases old)⟩
              cases reply with
              | error code =>
                  refine alone _ fresh.closed ?_ ?_
                  · simp [owning, Hold.after, Function.update]
                  · simp [owning, Hold.after, Function.update, held]
              | ok locked =>
                  refine ⟨⟨fresh.closed, ?_, ?_⟩, fun reply => ?_⟩
                  · simp [owning, Hold.after, Function.update, held]
                  · simp [owning, Hold.after, Function.update, made]
                  cases reply with
                  | error code =>
                      refine alone _ fresh.closed ?_ ?_
                      · simp [owning, Hold.after, Function.update]
                      · simp [owning, Hold.after, Function.update, held]
                  | ok created =>
                      refine follows_bind (create_headers_follow ⟨?_, ?_, rfl⟩ ?_ ?_) fun hold' result kept => ?_
                      · simp [owning, Hold.after, Function.update]
                      · simp [owning, Hold.after, Function.update]
                      · intro file
                        cases file <;> simp [owning, Hold.after, Function.update]
                      · exact initialised
                      · have closed : hold'.closed = true := kept.1.trans fresh.closed
                        have owns := kept.2
                        cases result with
                        | error error =>
                            exact ⟨closed, owns.database, owns.wal, fun none => (by cases none), fun new => (by cases new),
                              fun old => (by cases old)⟩
                        | ok done =>
                            exact ⟨closed, owns.database, owns.wal, fun none => (by cases none), fun _ => owns,
                              fun old => (by cases old)⟩

theorem acquire_follows (fresh : Fresh hold) (mode : OpenMode) : Prog.Follows owning Acquired hold (acquire mode) := by
  have held := fresh.held
  have nothing : ∀ error, Acquired hold (.error error, ⟨false, false⟩) := fun error =>
    ⟨fresh.closed, held _, held _, fun _ => fresh.locked, fun new => (by cases new), fun old => (by cases old)⟩
  unfold acquire
  split
  · exact create_follows fresh mode
  refine ⟨⟨fresh.closed, held _⟩, fun reply => ?_⟩
  cases reply with
  | ok opened =>
      refine ⟨fresh.closed, ?_, ?_, fun none => (by cases none), fun new => (by cases new), fun _ => ⟨rfl, fresh.locked⟩⟩
      · simp [owning, Hold.after, Function.update]
      · simp [owning, Hold.after, Function.update, held]
  | error code =>
      simp only
      split
      · exact create_follows fresh mode
      · exact nothing _

/-- After the part of open that opens what exists. -/
structure Companion (hold : Hold) (result : Except Error Unit × Owned) : Prop where
  database : hold.held .database = result.2.database
  wal : hold.held .wal = result.2.wal
  unlocked : result.2.database = false → hold.locked = false
  ready : result.1 = .ok () → Owns hold

theorem companion_follows (closed : hold.closed = true) (database : hold.held .database = true) (wal : hold.held .wal = false)
    (unlocked : hold.locked = false) : Prog.Follows owning Companion hold openCompanion := by
  have alone : ∀ {next : Hold} error, next.held .database = true → next.held .wal = false →
      Companion next (.error error, ⟨true, false⟩) := fun error database wal =>
    ⟨database, wal, fun none => (by cases none), fun ready => (by cases ready)⟩
  unfold openCompanion
  refine ⟨⟨closed, rfl, database, unlocked⟩, fun reply => ?_⟩
  cases reply with
  | error code => exact alone _ database wal
  | ok locked =>
      have header : Prog.Follows owning (fun hold' _ => hold' = { hold with locked := true }) { hold with locked := true }
          (do let _ ← pairHeader .database databaseMagic : Io Unit) := by
        have reads : Asks (fun call => ∃ offset length, call = .read .database offset length) (fun _ => True)
            (do let _ ← pairHeader .database databaseMagic : Io Unit) :=
          asks_bind (asks_pair_header _ fun offset length => ⟨offset, length, rfl⟩) fun _ _ => asks_pure trivial
        refine follows_mono (follows_still reads.follows ?_) fun _ _ kept => kept.1
        rintro request ⟨offset, length, rfl⟩
        exact ⟨⟨rfl, database⟩, fun reply => rfl⟩
      refine follows_bind header fun hold' result same => ?_
      subst same
      cases result with
      | error error => exact alone _ database wal
      | ok passed =>
          refine ⟨⟨closed, wal⟩, fun reply => ?_⟩
          cases reply with
          | error code => exact alone _ database wal
          | ok opened =>
              have owns : Owns (owning.next { hold with locked := true } (.open .wal) (.ok opened)) :=
                ⟨by simp [owning, Hold.after, Function.update, database], by simp [owning, Hold.after, Function.update], rfl⟩
              exact ⟨owns.database, owns.wal, fun none => (by cases none), fun _ => owns⟩

/-- Nothing is held. -/
structure Empty (hold : Hold) : Prop where
  held : ∀ file, hold.held file = false
  locked : hold.locked = false

theorem release_follows {owned : Owned} (database : hold.held .database = owned.database)
    (wal : hold.held .wal = owned.wal) (unlocked : owned.database = false → hold.locked = false) :
    Prog.Follows owning (fun hold' _ => Empty hold') hold (release owned) := by
  have last : ∀ {next : Hold}, next.held .database = owned.database → next.held .wal = false →
      (owned.database = false → next.locked = false) →
      Prog.Follows owning (fun hold' _ => Empty hold') next
        (if owned.database then .ask (.close .database) fun _ => .done () else .done () : Prog Reply Unit) := by
    intro next database wal unlocked
    cases open_ : owned.database with
    | true =>
        refine ⟨database.trans open_, fun reply => ⟨fun file => ?_, ?_⟩⟩
        · cases file <;> simp [owning, Hold.after, Function.update, wal]
        · simp [owning, Hold.after]
    | false =>
        refine ⟨fun file => ?_, unlocked open_⟩
        cases file with
        | database => exact database.trans open_
        | wal => exact wal
  obtain ⟨first, second⟩ := owned
  cases second with
  | false => exact last database wal unlocked
  | true =>
      refine ⟨wal, fun reply => last ?_ ?_ fun none => ?_⟩
      · simpa [owning, Hold.after, Function.update] using database
      · simp [owning, Hold.after, Function.update]
      · simpa [owning, Hold.after] using unlocked none

theorem empty_rests (empty : Empty hold) (database : db.database = false) (both : db.wal = db.database) : Rests hold db :=
  ⟨(empty.held _).trans database.symm, (empty.held _).trans database.symm, empty.locked.trans database.symm,
    fun held => absurd (database.symm.trans held) (by decide), both⟩

theorem open_follows (fresh : Fresh hold) (database : db.database = false) (both : db.wal = db.database) (mode : OpenMode)
    (scratchSize : Nat) :
    Prog.Follows owning (fun hold' result => Rests hold' result.2) hold (batchesOpen db mode scratchSize) := by
  have fails : ∀ {next : Hold} {owned : Owned} error, next.held .database = owned.database → next.held .wal = owned.wal →
      (owned.database = false → next.locked = false) →
      Prog.Follows owning (fun hold' result => Rests hold' result.2) next (failOpen db owned error) :=
    fun error first second unlocked => follows_bind (release_follows first second unlocked)
      fun _ _ empty => empty_rests empty database both
  have still : Empty hold := ⟨fresh.held, fresh.locked⟩
  by_cases held : db.database = true ∨ db.wal = true
  · rw [Opening.open_held held]
    exact empty_rests still database both
  have closed : db.database = false ∧ db.wal = false := by simpa using held
  by_cases small : scratchSize < batchScratch
  · rw [Opening.open_small closed small]
    exact empty_rests still database both
  rw [Opening.open_acquires closed (Nat.le_of_not_lt small)]
  refine follows_bind (acquire_follows fresh mode) fun hold' result acquired => ?_
  obtain ⟨result, owned⟩ := result
  cases result with
  | error error => exact fails _ acquired.database acquired.wal acquired.unlocked
  | ok created =>
      have second : Prog.Follows owning Companion hold'
          (if created then .done (.ok (), owned) else openCompanion : Prog Reply (Except Error Unit × Owned)) := by
        cases created with
        | true =>
            have owns := acquired.created rfl
            exact ⟨acquired.database, acquired.wal, acquired.unlocked, fun _ => owns⟩
        | false =>
            obtain ⟨rfl, unlocked⟩ := acquired.found rfl
            exact companion_follows acquired.closed acquired.database acquired.wal unlocked
      refine follows_bind second fun hold'' result companion => ?_
      obtain ⟨result, owned'⟩ := result
      cases result with
      | error error => exact fails _ companion.database companion.wal companion.unlocked
      | ok ready =>
          have owns := companion.ready rfl
          have recover : Asks Plain Usable (do let v ← validatePair; recoverPair v : Io Batches) :=
            asks_bind asks_validate fun _ placed => asks_recover placed
          refine follows_bind (asks_owning recover owns) fun last result kept => ?_
          obtain ⟨rfl, usable⟩ := kept
          cases result with
          | error error => exact fails _ companion.database companion.wal companion.unlocked
          | ok handle =>
              have usable := usable handle rfl
              exact ⟨owns.database.trans usable.database.symm, owns.wal.trans usable.database.symm,
                owns.locked.trans usable.database.symm, fun _ => usable, usable.wal.trans usable.database.symm⟩

theorem close_follows (rests : Rests hold db) :
    Prog.Follows owning (fun hold' result => Rests hold' result.2) hold (batchesClose db) := by
  cases held : db.database with
  | false =>
      have closed : batchesClose db = refuse db (.errno .ebadf) := if_pos ⟨held, rests.both.trans held⟩
      rw [closed]
      exact rests
  | true =>
      have wal : db.wal = true := rests.both.trans held
      have emptied : ∀ reply reply', Rests (owning.next (owning.next hold (.close .wal) reply) (.close .database) reply')
          batchesInit := by
        refine fun reply reply' => empty_rests ⟨fun file => ?_, ?_⟩ rfl rfl
        · cases file <;> simp [owning, Hold.after, Function.update]
        · simp [owning, Hold.after]
      have database : ∀ reply, (owning.next hold (.close .wal) reply).held .database = true := fun reply => by
        simpa [owning, Hold.after, Function.update, held] using rests.database
      simp only [batchesClose, held, wal, Bool.true_eq_false, false_and, if_false, if_true]
      refine ⟨rests.wal.trans held, fun reply => ?_⟩
      cases reply with
      | ok closed =>
          refine ⟨database (.ok closed), fun reply' => ?_⟩
          cases reply' with
          | ok closed' => exact emptied (.ok closed) (.ok closed')
          | error code => exact emptied (.ok closed) (.error code)
      | error code =>
          refine ⟨database (.error code), fun reply' => ?_⟩
          cases reply' with
          | ok closed => exact emptied (.error code) (.ok closed)
          | error code' => exact emptied (.error code) (.error code')

/-- The start of a call. -/
def Hold.call (hold : Hold) (db : Batches) : Hold :=
  { hold with closed := !db.database, made := fun _ => false, initialised := fun _ => false }

theorem rests_call (rests : Rests hold db) : Rests (hold.call db) db :=
  ⟨rests.database, rests.wal, rests.locked, rests.usable, rests.both⟩

theorem answering_follows {α : Type} {answer : α → Answer} {call : Op α}
    (follows : Prog.Follows owning (fun hold' result => Rests hold' result.2) hold call) :
    Prog.Follows owning (fun hold' result => Rests hold' result.2) hold (answering answer call) :=
  follows_bind follows fun _ _ rests => rests

/-- Every call of the library asks as a process may, and leaves its handle at rest. -/
theorem perform_follows (rests : Rests hold db) (act : Act) :
    Prog.Follows owning (fun hold' result => Rests hold' result.2) (hold.call db) (act.perform db) := by
  have still := rests_call rests
  by_cases closing : act = .close
  · subst closing
    exact answering_follows (close_follows still)
  cases held : db.database with
  | false =>
      have wal : db.wal = false := rests.both.trans held
      by_cases opening : ∃ mode scratchSize, act = .openPair mode scratchSize
      · obtain ⟨mode, scratchSize, rfl⟩ := opening
        have empty : ∀ file, (hold.call db).held file = false := fun file => by
          cases file with
          | database => exact rests.database.trans held
          | wal => exact rests.wal.trans held
        have fresh : Fresh (hold.call db) :=
          ⟨empty, rests.locked.trans held, by simp [Hold.call, held], fun _ => rfl, fun _ => rfl⟩
        exact answering_follows (open_follows fresh held rests.both mode scratchSize)
      · have ready : batchReady db = .error (.errno .ebadf) := if_pos wal
        rw [Soundness.refused_perform ready closing fun mode scratchSize same => opening ⟨mode, scratchSize, same⟩]
        exact still
  | true =>
      have owns : Owns (hold.call db) := ⟨rests.database.trans held, rests.wal.trans held, rests.locked.trans held⟩
      have works := operation_works (rests.usable held) closing
      refine follows_mono (follows_still works.follows fun _ plain => plain_stays owns plain) fun hold' result kept => ?_
      obtain ⟨rfl, usable⟩ := kept
      exact ⟨owns.database.trans usable.database.symm, owns.wal.trans usable.database.symm,
        owns.locked.trans usable.database.symm, fun _ => usable, usable.wal.trans usable.database.symm⟩

end Conformance

end Timelite.Owning
