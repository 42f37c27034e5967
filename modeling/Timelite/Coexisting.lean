import Timelite.Lifecycle
import Timelite.Sharing
import Timelite.Simulation

/-!
Processes that open, create and close one file through the lifecycle API. Their
backend requests interleave one by one, a write reaches the file piece by piece, any
request may fail, a process may end anywhere, and the power may go: a cut keeps what the
disk can keep, and the file itself only once its name is durable.
-/
namespace Timelite.Coexisting
open ByteFile Program Durable Codec Backend BatchApi Lifecycle Simulation

/-- A process: its handle, the call it is in with what is left of it, and its file. -/
structure Process where
  db : Db
  rest : Option (DbAct × DbOp)
  hold : Hold

/-- Every path that is not empty names the file that is `database` in the store. -/
structure World where
  store : Store
  named : Bool
  process : Nat → Process

def World.with (w : World) (p : Nat) (process : Process) : World := { w with process := Function.update w.process p process }

def idle : Process := ⟨dbInit, none, .none⟩

/-- A machine that starts with these bytes on disk. -/
def boot (image : Option Bytes) : World := ⟨⟨image.map settled, none, []⟩, image.isSome, fun _ => idle⟩

/-- The backend serves a request or fails it. -/
inductive Answers (store : Store) : (call : Call) → Reply call → Store → Prop where
  | served (call : Call) : Answers store call (serve call store).1 (serve call store).2
  | failed {call : Call} {reply : Reply call} {after : Store} (fault : Fault call store reply after) :
      Answers store call reply after

inductive Event where
  | called (p : Nat) (act : DbAct)
  | asked (p : Nat) (call : Call)
  | progressed (p : Nat)
  | returned (p : Nat) (act : DbAct) (db : Db) (result : Except Error Unit) (db' : Db)
  | exited (p : Nat)
  | cut

inductive Step : World → Event → World → Prop where
  | called {w : World} (p : Nat) (act : DbAct) (idle : (w.process p).rest = none) :
      Step w (.called p act) (w.with p ⟨(w.process p).db, some (act, act.perform (w.process p).db),
        (w.process p).hold.call (w.process p).db⟩)
  | asked {w : World} {p : Nat} {act : DbAct} {call : Call} {next : Reply call → DbOp} {reply : Reply call} {store : Store}
      (running : (w.process p).rest = some (act, .ask call next)) (answers : Answers w.store call reply store) :
      Step w (.asked p call) (World.with ⟨store, w.named, w.process⟩ p
        ⟨(w.process p).db, some (act, next reply), (w.process p).hold.after call reply⟩)
  -- The first bytes of a write that goes on.
  | progressed {w : World} {p : Nat} {act : DbAct} {offset : Nat} {bytes : Bytes}
      {next : Reply (.write .database offset bytes) → DbOp} (count : Nat)
      (running : (w.process p).rest = some (act, .ask (.write .database offset bytes) next)) :
      Step w (.progressed p) ⟨w.store.update .database (.write offset (bytes.take count)), w.named, w.process⟩
  | returned {w : World} {p : Nat} {act : DbAct} {result : Except Error Unit} {db : Db}
      (running : (w.process p).rest = some (act, .done (result, db))) :
      Step w (.returned p act (w.process p).db result db) (w.with p ⟨db, none, (w.process p).hold⟩)
  | exited {w : World} (p : Nat) : Step w (.exited p) (w.with p idle)
  | cut {w : World} {disk : Disk} {image : Bytes} (there : w.store.database = some disk)
      (survives : Survives (tearing .database) disk image) : Step w .cut (boot (some image))
  | lost {w : World} (unnamed : w.named = false) : Step w .cut (boot none)

/-- The request that process `p` makes next. -/
def World.Asks (w : World) (p : Nat) (call : Call) : Prop :=
  ∃ act next, (w.process p).rest = some (act, .ask call next)

section Creation
variable {disk : Disk} {image : Bytes}

-- The larger of two beginnings of one string.
theorem write_beginning (bytes : Bytes) (m n : Nat) : writeAt (bytes.take m) 0 (bytes.take n) = bytes.take (max m n) := by
  have back : (bytes.take m).drop (bytes.take n).length = (bytes.take (max m n)).drop (bytes.take n).length := by
    rw [List.drop_take, List.drop_take, List.length_take]
    rcases Nat.le_total m n with less | more
    · rw [Nat.max_eq_right less]
      have none : bytes.drop (min n bytes.length) = [] ∨ m - min n bytes.length = 0 ∧ n - min n bytes.length = 0 := by
        rcases Nat.le_total bytes.length n with short | long
        · exact .inl (List.drop_of_length_le (by omega))
        · exact .inr (by omega)
      rcases none with none | ⟨first, second⟩
      · simp [none]
      · rw [first, second]
    · rw [Nat.max_eq_left more]
  have front : bytes.take n = (bytes.take (max m n)).take (bytes.take n).length := by
    rw [List.take_take, List.length_take, Nat.min_eq_left (by omega)]
    exact (List.take_eq_take_min).trans rfl
  by_cases empty : bytes.take n = []
  · rw [writeAt, if_pos empty]
    have here := back
    rwa [empty, List.length_nil, List.drop_zero, List.drop_zero] at here
  · rw [writeAt, if_neg empty, List.take_zero, Nat.zero_sub, List.replicate_zero, List.nil_append, List.nil_append,
      Nat.zero_add, back]
    exact (congrArg (· ++ _) front).trans (List.take_append_drop _ _)

/-- A file that nothing but beginnings of the header has been written to. -/
structure Begun (disk : Disk) : Prop where
  durable : ∃ n, disk.durable = fileHeader.take n
  pending : ∀ change ∈ disk.pending, ∃ n, change = .write 0 (fileHeader.take n)

theorem fold_begun {image : Bytes} {changes : List Update} (start : ∃ n, image = fileHeader.take n)
    (each : ∀ change ∈ changes, ∃ n, change = .write 0 (fileHeader.take n)) :
    ∃ n, changes.foldl Update.apply image = fileHeader.take n := by
  induction changes generalizing image with
  | nil => exact start
  | cons change rest ih =>
      obtain ⟨m, rfl⟩ := start
      obtain ⟨n, rfl⟩ := each _ (List.mem_cons_self)
      exact ih ⟨max m n, write_beginning fileHeader m n⟩ fun other among => each other (List.mem_cons_of_mem _ among)

theorem Begun.survives (begun : Begun disk) {tearing : Tearing} (survives : Survives tearing disk image) :
    ∃ n, image = fileHeader.take n := by
  have front : ∀ {kept lost : List Update}, disk.pending = kept ++ lost →
      ∃ n, kept.foldl Update.apply disk.durable = fileHeader.take n := fun split =>
    fold_begun begun.durable fun change among => begun.pending change (split ▸ List.mem_append_left _ among)
  cases survives with
  | whole kept lost split => exact front split
  | torn kept lost offset bytes count split cut =>
      obtain ⟨m, before⟩ := front split
      obtain ⟨n, same⟩ := begun.pending (.write offset bytes) (split ▸ List.mem_append_right _ List.mem_cons_self)
      cases same
      rw [before, List.take_take, write_beginning]
      exact ⟨_, rfl⟩

theorem Begun.content (begun : Begun disk) : ∃ n, disk.content = fileHeader.take n :=
  begun.survives (@survives_content anywhere disk)

theorem begun_new : Begun (settled []) := ⟨⟨0, rfl⟩, fun change none => by cases none⟩

theorem Begun.sync (begun : Begun disk) : Begun disk.sync := ⟨begun.content, fun change none => by cases none⟩

theorem Begun.write (begun : Begun disk) (count : Nat) : Begun (disk.update (.write 0 (fileHeader.take count))) := by
  refine ⟨begun.durable, fun change among => ?_⟩
  rcases List.mem_append.mp among with old | new
  · exact begun.pending change old
  · exact ⟨count, List.mem_singleton.mp new⟩

-- Beginnings of the header change nothing in a complete file.
theorem write_complete (complete : disk.content = fileHeader) (count : Nat) :
    (disk.update (.write 0 (fileHeader.take count))).content = fileHeader := by
  have same := write_beginning fileHeader fileHeader.length count
  rw [List.take_length] at same
  rw [update_content, complete, Update.apply, same]
  exact List.take_of_length_le (Nat.le_max_left _ _)

theorem Begun.complete (begun : Begun disk) : (disk.update (.write 0 fileHeader)).content = fileHeader := by
  obtain ⟨n, written⟩ := begun.content
  have whole := write_beginning fileHeader n fileHeader.length
  rw [List.take_length] at whole
  rw [update_content, Update.apply, written, whole]
  exact List.take_of_length_le (Nat.le_max_right _ _)

end Creation

section Requests
variable {image : Bytes} {disk : Disk} {store after : Store} {hold other : Hold} {call : Call} {reply : Reply call}

/-- What a process knows of a file at rest: it has made nothing, and has read what is there. -/
structure Reads (image : Bytes) (hold : Hold) : Prop where
  made : hold.made = false
  seen : ∀ header, hold.seen = some header → header = readAt image 0 12
  size : ∀ size, hold.size = some size → size = image.length

/-- What a process knows of a file that is being created: if it has seen the whole header it
stays, and a creator that has synced has made it durable. -/
structure Knows (disk : Disk) (hold : Hold) : Prop where
  seen : ∀ header, hold.seen = some header → (∃ n, header = fileHeader.take n) ∧
    (header.length = 12 → disk.content = fileHeader)
  size : hold.size = some 12 → disk.content = fileHeader
  whole : hold.whole = true → disk.content = fileHeader
  synced : hold.synced = true → hold.made = true ∧ hold.whole = true ∧ disk = settled fileHeader

theorem reads_none : Reads image .none := ⟨rfl, fun _ none => (by cases none), fun _ none => by cases none⟩

theorem knows_none : Knows disk .none :=
  ⟨fun _ none => (by cases none), fun none => (by cases none), fun none => (by cases none), fun none => by cases none⟩

section Replies

theorem answers_open {reply : Reply (.open .database)} (answers : Answers store (.open .database) reply after) :
    after = store ∧ (store.database = none → ∃ code, reply = .error code) := by
  cases answers with
  | served =>
      cases there : store.database with
      | none =>
          have served : serve (.open .database) store = (.error .enoent, store) := by simp [Backend.serve, Store.disk?, there]
          rw [served]
          exact ⟨rfl, fun _ => ⟨_, rfl⟩⟩
      | some disk =>
          have served : serve (.open .database) store = (.ok (), store) := by simp [Backend.serve, Store.disk?, there]
          rw [served]
          exact ⟨rfl, fun nothing => by cases nothing⟩
  | failed fault => cases fault with | before call store code known => exact ⟨rfl, fun _ => ⟨code, rfl⟩⟩

theorem answers_create {reply : Reply (.create .database)} (answers : Answers store (.create .database) reply after) :
    after = store ∧ (∃ code, reply = .error code) ∨ store.database = none ∧ after.database = some (settled []) := by
  cases answers with
  | served =>
      cases there : store.database with
      | none =>
          have served : serve (.create .database) store = (.ok (), store.put .database (settled [])) := by
            simp [Backend.serve, Store.disk?, there]
          rw [served]
          exact .inr ⟨rfl, rfl⟩
      | some disk =>
          have served : serve (.create .database) store = (.error .eexist, store) := by simp [Backend.serve, Store.disk?, there]
          rw [served]
          exact .inl ⟨rfl, _, rfl⟩
  | failed fault =>
      cases fault with
      | before call store code known => exact .inl ⟨rfl, code, rfl⟩
      | create file store code fresh known => exact .inr ⟨fresh, rfl⟩

theorem answers_read {offset length : Nat} {reply : Reply (.read .database offset length)}
    (answers : Answers store (.read .database offset length) reply after) :
    after = store ∧ ∀ bytes, reply = .ok bytes → bytes = readAt (store.content .database) offset length := by
  cases answers with
  | served => exact ⟨rfl, fun bytes same => (Except.ok.inj same).symm⟩
  | failed fault => cases fault with | before call store code known => exact ⟨rfl, fun bytes same => by cases same⟩

theorem answers_size {reply : Reply (.size .database)} (answers : Answers store (.size .database) reply after) :
    after = store ∧ ∀ size, reply = .ok size → size = (store.content .database).length := by
  cases answers with
  | served => exact ⟨rfl, fun size same => (Except.ok.inj same).symm⟩
  | failed fault => cases fault with | before call store code known => exact ⟨rfl, fun size same => by cases same⟩

theorem answers_close {reply : Reply (.close .database)} (answers : Answers store (.close .database) reply after) : after = store := by
  cases answers with
  | served => rfl
  | failed fault => cases fault with | before call store code known => rfl

theorem answers_write {offset : Nat} {bytes : Bytes} {reply : Reply (.write .database offset bytes)}
    (there : store.database = some disk) (answers : Answers store (.write .database offset bytes) reply after) :
    (after.database = some (disk.update (.write offset bytes)) ∧ reply = .ok bytes.length) ∨
      (∃ code, reply = .error code) ∧ (after.database = some disk ∨
        ∃ count, after.database = some (disk.update (.write offset (bytes.take count)))) := by
  have whole : ∀ change, (store.update .database change).database = some (disk.update change) := fun change => by
    simp [Store.update, Store.put, Store.disk, Store.disk?, there]
  cases answers with
  | served => exact .inl ⟨whole _, rfl⟩
  | failed fault =>
      cases fault with
      | before call store code known => exact .inr ⟨⟨code, rfl⟩, .inl there⟩
      | write file offset bytes count store code cut => exact .inr ⟨⟨code, rfl⟩, .inr ⟨count, whole _⟩⟩

theorem answers_sync {reply : Reply (.sync .database)} (there : store.database = some disk)
    (answers : Answers store (.sync .database) reply after) :
    after.database = some disk.sync ∨ after.database = some disk ∧ ∃ code, reply = .error code := by
  have synced : (store.sync .database).database = some disk.sync := by
    simp [Store.sync, Store.put, Store.disk, Store.disk?, there]
  cases answers with
  | served => exact .inl synced
  | failed fault =>
      cases fault with
      | before call store code known => exact .inr ⟨there, code, rfl⟩
      | sync file store code => exact .inl synced

end Replies

-- A file at rest stays as it is.
theorem rest_asked (there : store.database = some (settled image)) (reads : Reads image hold)
    (permitted : permits hold call) (answers : Answers store call reply after) :
    after.database = some (settled image) ∧ Reads image (hold.after call reply) := by
  have content : store.content .database = image := by simp [Store.content, Store.disk, Store.disk?, there]
  cases call with
  | «open» file =>
      obtain ⟨rfl, rfl⟩ := permitted
      obtain ⟨rfl, -⟩ := answers_open answers
      cases reply with
      | ok done => exact ⟨there, rfl, reads.seen, reads.size⟩
      | error code => exact ⟨there, reads⟩
  | create file =>
      obtain ⟨rfl, rfl⟩ := permitted
      rcases answers_create answers with ⟨rfl, code, rfl⟩ | ⟨nothing, -⟩
      · exact ⟨there, reads⟩
      · rw [there] at nothing
        cases nothing
  | read file offset length =>
      obtain ⟨rfl, held, made, rfl, rfl⟩ := permitted
      obtain ⟨rfl, found⟩ := answers_read answers
      cases reply with
      | ok bytes =>
          refine ⟨there, reads.made, fun header same => ?_, reads.size⟩
          rw [← Option.some.inj same, found bytes rfl, content]
      | error code => exact ⟨there, reads⟩
  | size file =>
      obtain ⟨rfl, held, made⟩ := permitted
      obtain ⟨rfl, found⟩ := answers_size answers
      cases reply with
      | ok size =>
          refine ⟨there, reads.made, reads.seen, fun size' same => ?_⟩
          rw [← Option.some.inj same, found size rfl, content]
      | error code => exact ⟨there, reads⟩
  | write file offset bytes => exact absurd (reads.made.symm.trans permitted.2.2.1) (by decide)
  | sync file => exact absurd (reads.made.symm.trans permitted.2.2.1) (by decide)
  | close file =>
      obtain ⟨rfl, held⟩ := permitted
      cases answers_close answers
      exact ⟨there, rfl, reads.seen, reads.size⟩
  | _ => cases permitted

-- Nobody holds a file that is not there, and a new one is empty.
theorem absent_asked (nothing : store.database = none) (permitted : permits .none call) (answers : Answers store call reply after) :
    after.database = none ∧ Hold.none.after call reply = .none ∨
      after.database = some (settled []) ∧ Knows (settled []) (Hold.none.after call reply) := by
  cases call with
  | «open» file =>
      obtain ⟨rfl, -⟩ := permitted
      obtain ⟨rfl, failed⟩ := answers_open answers
      obtain ⟨code, rfl⟩ := failed nothing
      exact .inl ⟨nothing, rfl⟩
  | create file =>
      obtain ⟨rfl, -⟩ := permitted
      rcases answers_create answers with ⟨rfl, code, rfl⟩ | ⟨-, made⟩
      · exact .inl ⟨nothing, rfl⟩
      · refine .inr ⟨made, ?_⟩
        cases reply with
        | ok done => exact ⟨knows_none.seen, knows_none.size, knows_none.whole, fun none => by cases none⟩
        | error code => exact knows_none
  | read file offset length => exact absurd permitted.2.1 (by decide)
  | size file => exact absurd permitted.2.1 (by decide)
  | write file offset bytes => exact absurd permitted.2.1 (by decide)
  | sync file => exact absurd permitted.2.1 (by decide)
  | close file => exact absurd permitted.2 (by decide)
  | _ => cases permitted

-- What a process knows outlasts a write of the header by another one.
theorem Knows.write (knows : Knows disk hold) (count : Nat) (idle : hold.synced = false) :
    Knows (disk.update (.write 0 (fileHeader.take count))) hold where
  seen header found := ⟨(knows.seen header found).1, fun whole => write_complete ((knows.seen header found).2 whole) count⟩
  size found := write_complete (knows.size found) count
  whole whole := write_complete (knows.whole whole) count
  synced synced := by
    rw [idle] at synced
    cases synced

theorem Knows.unsynced (knows : Knows disk hold) (unmade : hold.made = false) : hold.synced = false := by
  by_contra synced
  have made := (knows.synced (by simpa using synced)).1
  rw [unmade] at made
  cases made

theorem Knows.sync (knows : Knows disk hold) : Knows disk.sync hold where
  seen := knows.seen
  size := knows.size
  whole := knows.whole
  synced synced := by
    obtain ⟨made, whole, same⟩ := knows.synced synced
    exact ⟨made, whole, by rw [same, sync_settled]⟩

/-- A file that is being created only grows, by what its creator writes. -/
theorem fresh_asked (there : store.database = some disk) (begun : Begun disk) (knows : Knows disk hold)
    (permitted : permits hold call) (answers : Answers store call reply after) :
    ∃ disk', after.database = some disk' ∧ Begun disk' ∧ Knows disk' (hold.after call reply) ∧
      ((hold.after call reply).made = true → hold.made = true) ∧
      ∀ other, Knows disk other → (hold.made = true → other.made = false) → Knows disk' other := by
  have content : store.content .database = disk.content := by simp [Store.content, Store.disk, Store.disk?, there]
  have stays : ∀ {hold' : Hold}, Knows disk hold' → (hold'.made = true → hold.made = true) →
      ∃ disk', some disk = some disk' ∧ Begun disk' ∧ Knows disk' hold' ∧ (hold'.made = true → hold.made = true) ∧
        ∀ other, Knows disk other → (hold.made = true → other.made = false) → Knows disk' other := fun knows' made =>
    ⟨disk, rfl, begun, knows', made, fun _ kept _ => kept⟩
  cases call with
  | «open» file =>
      obtain ⟨rfl, rfl⟩ := permitted
      obtain ⟨rfl, -⟩ := answers_open answers
      rw [there]
      cases reply with
      | ok done => exact stays ⟨knows.seen, knows.size, knows.whole, knows.synced⟩ id
      | error code => exact stays knows id
  | create file =>
      obtain ⟨rfl, rfl⟩ := permitted
      rcases answers_create answers with ⟨rfl, code, rfl⟩ | ⟨nothing, -⟩
      · rw [there]
        exact stays knows id
      · rw [there] at nothing
        cases nothing
  | read file offset length =>
      obtain ⟨rfl, held, made, rfl, rfl⟩ := permitted
      obtain ⟨rfl, found⟩ := answers_read answers
      rw [there]
      cases reply with
      | ok bytes =>
          refine stays ⟨fun header same => ?_, knows.size, knows.whole, knows.synced⟩ id
          obtain ⟨n, written⟩ := begun.content
          have read : header = (fileHeader.take n).take 12 := by
            rw [← Option.some.inj same, found bytes rfl, content, written]
            rfl
          rw [List.take_take] at read
          refine ⟨⟨min 12 n, read⟩, fun whole => ?_⟩
          have long : fileHeader.length ≤ n := by
            have size := congrArg List.length read
            rw [whole, List.length_take, show fileHeader.length = 12 from rfl] at size
            rw [show fileHeader.length = 12 from rfl]
            omega
          rw [written, List.take_of_length_le long]
      | error code => exact stays knows id
  | size file =>
      obtain ⟨rfl, held, made⟩ := permitted
      obtain ⟨same, found⟩ := answers_size answers
      rw [same, there]
      cases reply with
      | ok size =>
          refine stays ⟨knows.seen, fun same => ?_, knows.whole, knows.synced⟩ id
          obtain ⟨n, written⟩ := begun.content
          have long : fileHeader.length ≤ n := by
            have size : 12 = (store.content .database).length := (Option.some.inj same).symm.trans (found size rfl)
            rw [content, written, List.length_take, show fileHeader.length = 12 from rfl] at size
            rw [show fileHeader.length = 12 from rfl]
            omega
          rw [written, List.take_of_length_le long]
      | error code => exact stays knows id
  | write file offset bytes =>
      obtain ⟨rfl, held, made, partly, rfl, rfl⟩ := permitted
      have unsynced : hold.synced = false := by
        by_contra synced
        have whole := (knows.synced (by simpa using synced)).2.1
        rw [partly] at whole
        cases whole
      have grows : ∀ {hold' : Hold} count, after.database = some (disk.update (.write 0 (fileHeader.take count))) →
          Knows (disk.update (.write 0 (fileHeader.take count))) hold' → (hold'.made = true → hold.made = true) →
          ∃ disk', after.database = some disk' ∧ Begun disk' ∧ Knows disk' hold' ∧ (hold'.made = true → hold.made = true) ∧
            ∀ other, Knows disk other → (hold.made = true → other.made = false) → Knows disk' other :=
        fun count grown knows' kept => ⟨_, grown, begun.write count, knows', kept, fun other known unmade =>
          known.write count (known.unsynced (unmade made))⟩
      rcases answers_write there answers with ⟨grown, rfl⟩ | ⟨⟨code, rfl⟩, same | ⟨count, grown⟩⟩
      · rw [show fileHeader = fileHeader.take 12 from rfl] at grown
        have complete := begun.complete
        rw [show fileHeader = fileHeader.take 12 from rfl] at complete
        refine grows 12 grown ⟨fun header found => ⟨(knows.seen header found).1, fun _ => complete⟩, fun _ => complete,
          fun _ => complete, fun synced => ?_⟩ id
        exact absurd (unsynced.symm.trans synced) (by decide)
      · rw [same]
        exact stays knows id
      · exact grows count grown (knows.write count unsynced) id
  | sync file =>
      obtain ⟨rfl, held, made, whole⟩ := permitted
      rcases answers_sync there answers with synced | ⟨same, code, rfl⟩
      · have durable : disk.sync = settled fileHeader := congrArg settled (knows.whole whole)
        refine ⟨disk.sync, synced, begun.sync, ?_, ?_, fun other known _ => known.sync⟩
        · cases reply with
          | ok done => exact ⟨knows.seen, knows.size, knows.whole, fun _ => ⟨made, whole, durable⟩⟩
          | error code => exact knows.sync
        · cases reply with
          | ok done => exact id
          | error code => exact id
      · rw [same]
        exact stays knows id
  | close file =>
      obtain ⟨rfl, held⟩ := permitted
      cases answers_close answers
      rw [there]
      exact stays ⟨knows.seen, knows.size, fun none => (by cases none), fun none => by cases none⟩ fun none => by cases none
  | _ => cases permitted

end Requests

section Invariant
variable {start : Option Bytes} {w w' : World} {event : Event}

/-- A process is between two calls, or asks as its call may. -/
inductive Conforms (process : Process) : Prop where
  | idle (none : process.rest = none) (rests : Rests process.hold process.db)
  | busy (act : DbAct) (program : DbOp) (some : process.rest = some (act, program))
      (follows : program.Follows plain (Returns act process.db) process.hold)

/-- What the file was at the start, or what a creation that was cut off has left of the header. -/
def Origin (start : Option Bytes) (image : Bytes) : Prop :=
  start = some image ∨ start = none ∧ ∃ n, image = fileHeader.take n

/-- The file is not there, or at rest since before the last cut, or has been created since. -/
inductive Stage (start : Option Bytes) (w : World) : Prop where
  | absent (fresh : start = none) (nothing : w.store.database = none) (blank : ∀ p, (w.process p).hold = .none)
  | rest (image : Bytes) (origin : Origin start image) (named : w.named = true)
      (there : w.store.database = some (settled image)) (reads : ∀ p, Reads image (w.process p).hold)
  | created (disk : Disk) (fresh : start = none) (there : w.store.database = some disk) (begun : Begun disk)
      (knows : ∀ p, Knows disk (w.process p).hold)
      (alone : ∀ p q, (w.process p).hold.made = true → (w.process q).hold.made = true → p = q)

/-- What holds of every world. -/
structure Sane (start : Option Bytes) (w : World) : Prop where
  conforms : ∀ p, Conforms (w.process p)
  stage : Stage start w

/-- What the caller of an open can be told. -/
def Answered (start : Option Bytes) (result : Except Error Unit) : Prop :=
  (∃ code, result = .error (.errno code)) ∨ match start with
    | some image => result = verdict image
    | none => result = .ok () ∨ result = .error .invalidDatabase

/-- What every call that returns tells. -/
def Tells (start : Option Bytes) : Event → Prop
  | .returned _ act db result db' => Outcome db result db' act ∧ ∀ path mode, act = .openDb path mode → Answered start result
  | _ => True

theorem with_process (w : World) (p q : Nat) (process : Process) :
    (w.with p process).process q = if q = p then process else w.process q := Function.update_apply _ _ _ _

theorem idle_conforms : Conforms idle := .idle rfl ⟨rfl, fun held => by cases held⟩

theorem boot_sane {image : Option Bytes} (origin : ∀ bytes, image = some bytes → Origin start bytes)
    (fresh : image = none → start = none) : Sane start (boot image) := by
  refine ⟨fun _ => idle_conforms, ?_⟩
  cases image with
  | none => exact .absent (fresh rfl) rfl fun _ => rfl
  | some bytes => exact .rest bytes (origin bytes rfl) rfl rfl fun _ => reads_none

-- Beginnings of the header are complete or invalid.
theorem judge_beginning (n size : Nat) :
    judge (fileHeader.take n) size = .ok () ∨ judge (fileHeader.take n) size = .error .invalidDatabase := by
  by_cases whole : fileHeader.length ≤ n
  · have version : decode32 (fileHeader.drop 8) = 1 := by decide
    have framed : fileHeader.length = 12 ∧ fileHeader.take 8 = databaseMagic := ⟨rfl, rfl⟩
    rw [List.take_of_length_le whole, judge, if_neg (not_not_intro framed), if_neg (by omega), if_neg (not_not_intro version)]
    by_cases sized : size = 12
    · exact .inl (if_pos sized)
    · exact .inr (if_neg sized)
  · have short : ¬ ((fileHeader.take n).length = 12 ∧ (fileHeader.take n).take 8 = databaseMagic) := fun framed => by
      have size := framed.1
      rw [List.length_take] at size
      have wide : fileHeader.length = 12 := rfl
      omega
    exact .inr (if_pos short)

theorem stage_answers {p : Nat} {result : Except Error Unit} (stage : Stage start w)
    (explained : Explained (w.process p).hold result) : Answered start result := by
  cases explained with
  | failed code same => exact .inl ⟨code, same⟩
  | made same synced =>
      cases stage with
      | absent fresh nothing blank => exact absurd ((blank p) ▸ synced.1) (by decide)
      | rest image origin named there reads => exact absurd ((reads p).made.symm.trans synced.1) (by decide)
      | created disk fresh there begun knows alone =>
          subst fresh
          exact .inr (.inl same)
  | seen unmade header found same =>
      cases stage with
      | absent fresh nothing blank =>
          rw [blank p] at found
          cases found
      | rest image origin named there reads =>
          have told : result = verdict image := by
            rw [same image.length fun known sized => (reads p).size known sized, (reads p).seen header found]
            rfl
          rcases origin with rfl | ⟨rfl, n, rfl⟩
          · exact .inr told
          · rw [told, verdict, readAt, List.drop_zero, List.take_take]
            exact .inr (judge_beginning _ _)
      | created disk fresh there begun knows alone =>
          subst fresh
          obtain ⟨⟨n, rfl⟩, -⟩ := (knows p).seen header found
          cases sized : (w.process p).hold.size with
          | none =>
              rw [same 0 fun known some => by rw [sized] at some; cases some]
              exact .inr (judge_beginning _ _)
          | some size =>
              rw [same size fun known some => Option.some.inj (some.symm.trans sized)]
              exact .inr (judge_beginning _ _)

-- A step of one process that asks nothing.
theorem stage_with {p : Nat} {process : Process} (stage : Stage start w)
    (kept : process.hold = (w.process p).hold ∨ process.hold = .none) : Stage start (w.with p process) := by
  have holds : ∀ {known : Hold → Prop}, known .none → (∀ q, known (w.process q).hold) → ∀ q, known ((w.with p process).process q).hold := by
    intro known blank each q
    rw [with_process]
    split
    · rcases kept with same | same <;> rw [same]
      · exact each p
      · exact blank
    · exact each q
  cases stage with
  | absent fresh nothing blank => exact .absent fresh nothing (@holds (fun hold => hold = .none) rfl blank)
  | rest image origin named there reads => exact .rest image origin named there (holds reads_none reads)
  | created disk fresh there begun knows alone =>
      have made : ∀ q, ((w.with p process).process q).hold.made = true → (w.process q).hold.made = true := by
        intro q here
        rw [with_process] at here
        split at here
        · rename_i same
          rw [same]
          rcases kept with kept | kept <;> rw [kept] at here
          · exact here
          · cases here
        · exact here
      exact .created disk fresh there begun (holds knows_none knows) fun q r here there => alone q r (made q here) (made r there)

theorem stage_asked {p : Nat} {call : Call} {reply : Reply call} {store : Store} {db : Db} {rest : Option (DbAct × DbOp)}
    (stage : Stage start w) (permitted : permits (w.process p).hold call) (answers : Answers w.store call reply store) :
    Stage start (World.with ⟨store, w.named, w.process⟩ p ⟨db, rest, (w.process p).hold.after call reply⟩) := by
  generalize movedEq : World.with ⟨store, w.named, w.process⟩ p ⟨db, rest, (w.process p).hold.after call reply⟩ = moved
  have stored : moved.store = store ∧ moved.named = w.named := by
    rw [← movedEq]
    exact ⟨rfl, rfl⟩
  have here : (moved.process p).hold = (w.process p).hold.after call reply := by rw [← movedEq, with_process, if_pos rfl]
  have others : ∀ q, q ≠ p → (moved.process q).hold = (w.process q).hold := fun q other => by
    rw [← movedEq, with_process, if_neg other]
  have each : ∀ {known : Hold → Prop}, known ((w.process p).hold.after call reply) →
      (∀ q, q ≠ p → known (w.process q).hold) → ∀ q, known (moved.process q).hold := by
    intro known mine rest q
    by_cases same : q = p
    · rw [same, here]
      exact mine
    · rw [others q same]
      exact rest q same
  cases stage with
  | absent fresh nothing blank =>
      have start : permits .none call := blank p ▸ permitted
      have answer := absent_asked nothing start answers
      rw [← blank p] at answer
      rcases answer with ⟨still, none⟩ | ⟨made, knows⟩
      · exact .absent fresh (stored.1 ▸ still) (@each (fun hold => hold = .none) (none.trans (blank p)) fun q _ => blank q)
      · refine .created (settled []) fresh (stored.1 ▸ made) begun_new (each knows fun q _ => ?_) fun q r made made' => ?_
        · rw [blank q]
          exact knows_none
        · have only : ∀ q, (moved.process q).hold.made = true → q = p := fun q made => by
            by_contra other
            rw [others q other, blank q] at made
            cases made
          rw [only q made, only r made']
  | rest image origin named there reads =>
      obtain ⟨still, mine⟩ := rest_asked there (reads p) permitted answers
      exact .rest image origin (stored.2.trans named) (stored.1 ▸ still) (each mine fun q _ => reads q)
  | created disk fresh there begun knows alone =>
      obtain ⟨disk', there', begun', mine, made, kept⟩ := fresh_asked there begun (knows p) permitted answers
      have unmade : ∀ q, q ≠ p → (w.process p).hold.made = true → (w.process q).hold.made = false := fun q other creator => by
        by_contra made
        exact other (alone q p (by simpa using made) creator)
      have before : ∀ q, (moved.process q).hold.made = true → (w.process q).hold.made = true := fun q now => by
        by_cases same : q = p
        · rw [same, here] at now
          rw [same]
          exact made now
        · rwa [others q same] at now
      exact .created disk' fresh (stored.1 ▸ there') begun' (each mine fun q other => kept _ (knows q) (unmade q other))
        fun q r now now' => alone q r (before q now) (before r now')

theorem stage_progressed {p offset count : Nat} {bytes : Bytes} (stage : Stage start w)
    (permitted : permits (w.process p).hold (.write .database offset bytes)) :
    Stage start ⟨w.store.update .database (.write offset (bytes.take count)), w.named, w.process⟩ := by
  obtain ⟨-, held, made, partly, rfl, rfl⟩ := permitted
  cases stage with
  | absent fresh nothing blank => exact absurd ((blank p) ▸ held) (by decide)
  | rest image origin named there reads => exact absurd ((reads p).made.symm.trans made) (by decide)
  | created disk fresh there begun knows alone =>
      have grown : (w.store.update .database (.write 0 (fileHeader.take count))).database =
          some (disk.update (.write 0 (fileHeader.take count))) := by
        simp [Store.update, Store.put, Store.disk, Store.disk?, there]
      refine .created _ fresh grown (begun.write count) (fun q => (knows q).write count ?_) alone
      by_contra synced
      obtain ⟨creator, whole, -⟩ := (knows q).synced (by simpa using synced)
      rw [alone q p creator made, partly] at whole
      cases whole

theorem conforms_permits {process : Process} {act : DbAct} {call : Call} {next : Reply call → DbOp} (conforms : Conforms process)
    (running : process.rest = some (act, .ask call next)) :
    permits process.hold call ∧ ∀ reply, (next reply).Follows plain (Returns act process.db) (process.hold.after call reply) := by
  cases conforms with
  | idle none rests =>
      rw [running] at none
      cases none
  | busy act program some follows =>
      rw [running] at some
      cases some
      exact follows

theorem step_sane (sane : Sane start w) (step : Step w event w') : Sane start w' ∧ Tells start event := by
  have conforms : ∀ {w' : World} {p : Nat} {process : Process}, Conforms process → w'.process = w.process →
      ∀ q, Conforms ((w'.with p process).process q) := by
    intro w' p process mine same q
    rw [with_process]
    split
    · exact mine
    · rw [same]
      exact sane.conforms q
  cases step with
  | called p act idle =>
      have rests : Rests (w.process p).hold (w.process p).db := by
        cases sane.conforms p with
        | idle none rests => exact rests
        | busy act program some follows =>
            rw [idle] at some
            cases some
      refine ⟨⟨conforms (.busy act _ rfl (perform_follows rests act)) rfl, stage_with sane.stage ?_⟩, trivial⟩
      unfold Hold.call
      split
      · exact .inl rfl
      · exact .inr rfl
  | @asked p act call next reply store running answers =>
      obtain ⟨permitted, follows⟩ := conforms_permits (sane.conforms p) running
      exact ⟨⟨conforms (.busy act (next reply) rfl (follows reply)) rfl, stage_asked sane.stage permitted answers⟩, trivial⟩
  | @progressed p act offset bytes next count running =>
      exact ⟨⟨sane.conforms, stage_progressed sane.stage (conforms_permits (sane.conforms p) running).1⟩, trivial⟩
  | @returned p act result db running =>
      cases sane.conforms p with
      | idle none rests =>
          rw [running] at none
          cases none
      | busy act' program some follows =>
          rw [running] at some
          cases some
          obtain ⟨rests, outcome, explained⟩ := follows
          exact ⟨⟨conforms (.idle rfl rests) rfl, stage_with sane.stage (.inl rfl)⟩, outcome,
            fun path mode same => stage_answers sane.stage (explained path mode same)⟩
  | exited p => exact ⟨⟨conforms idle_conforms rfl, stage_with sane.stage (.inr rfl)⟩, trivial⟩
  | @cut disk image there survives =>
      refine ⟨boot_sane (fun bytes same => ?_) (fun none => by cases none), trivial⟩
      cases same
      cases sane.stage with
      | absent fresh nothing blank =>
          rw [nothing] at there
          cases there
      | rest image' origin named there' reads =>
          rw [there'] at there
          cases there
          exact (survives_settled survives) ▸ origin
      | created disk' fresh there' begun knows alone =>
          rw [there'] at there
          cases there
          exact .inr ⟨fresh, begun.survives survives⟩
  | lost unnamed =>
      refine ⟨boot_sane (fun bytes none => by cases none) fun _ => ?_, trivial⟩
      cases sane.stage with
      | absent fresh nothing blank => exact fresh
      | rest image origin named there reads => exact absurd (unnamed.symm.trans named) (by decide)
      | created disk fresh there begun knows alone => exact fresh

theorem runs_sane {events : List Event} (runs : Runs Step (boot start) events w) :
    Sane start w ∧ ∀ event ∈ events, Tells start event :=
  runs_keep runs (boot_sane (fun _ same => .inl same) id) fun _ _ _ => step_sane

-- What changes a file is asked for by the creator, and is the header or its sync.
theorem sane_effects {p : Nat} {call : Call} (sane : Sane start w) (asks : w.Asks p call) (effects : Sharing.Effects call) :
    (w.process p).hold.made = true ∧ (call = .write .database 0 fileHeader ∨ call = .sync .database) := by
  obtain ⟨act, next, running⟩ := asks
  have permitted := (conforms_permits (sane.conforms p) running).1
  cases call with
  | write file offset bytes =>
      obtain ⟨rfl, -, made, -, rfl, rfl⟩ := permitted
      exact ⟨made, .inl rfl⟩
  | sync file =>
      obtain ⟨rfl, -, made, -⟩ := permitted
      exact ⟨made, .inr rfl⟩
  | truncate file size => cases permitted
  | provision file => cases permitted
  | _ => cases effects

theorem sane_alone {p q : Nat} (sane : Sane start w) (made : (w.process p).hold.made = true)
    (made' : (w.process q).hold.made = true) : p = q := by
  cases sane.stage with
  | absent fresh nothing blank => exact absurd ((blank p) ▸ made) (by decide)
  | rest image origin named there reads => exact absurd ((reads p).made.symm.trans made) (by decide)
  | created disk fresh there begun knows alone => exact alone p q made made'

-- What stands behind an open handle.
theorem stage_backed {p : Nat} (stage : Stage start w) (backed : Backed (w.process p).hold) :
    ∃ disk, w.store.database = some disk ∧ disk.content = fileHeader ∧
      ((w.process p).hold.made = true → disk = settled fileHeader) := by
  cases stage with
  | absent fresh nothing blank =>
      rw [blank p] at backed
      rcases backed with ⟨made, -⟩ | ⟨-, seen, -⟩
      · cases made
      · cases seen
  | rest image origin named there reads =>
      rcases backed with ⟨made, -⟩ | ⟨-, seen, size⟩
      · exact absurd ((reads p).made.symm.trans made) (by decide)
      · have whole : image.take image.length = fileHeader :=
          (reads p).size 12 size ▸ ((reads p).seen fileHeader seen).symm
        rw [List.take_length] at whole
        refine ⟨settled image, there, whole, fun made => ?_⟩
        exact absurd ((reads p).made.symm.trans made) (by decide)
  | created disk fresh there begun knows alone =>
      rcases backed with ⟨-, synced⟩ | ⟨unmade, seen, -⟩
      · have durable := ((knows p).synced synced).2.2
        exact ⟨disk, there, by rw [durable]; rfl, fun _ => durable⟩
      · refine ⟨disk, there, ((knows p).seen fileHeader seen).2 rfl, fun made => ?_⟩
        exact absurd (unmade.symm.trans made) (by decide)

end Invariant

/-- In every interleaving of processes that open, create and close one file, with failing requests,
processes that end anywhere and power cuts. A file of the start is never changed. A file that is
created holds a beginning of the header, whatever a cut leaves of it, and one creator at a time asks
for that header and its sync. Between calls a process has the file exactly if its handle is open, and
an open handle stands for the complete header, which is durable if the process is the creator. Every
call that returns tells its result and its handle as documented: the result of an open is what the bytes
of the file say, or a failed request. And an open that runs alone from there on answers as `alone` does. -/
theorem lifecycle {start : Option Bytes} {events : List Event} {w : World} (runs : Runs Step (boot start) events w) :
    (∀ image, start = some image → w.store.database = some (settled image) ∧
      ∀ p call, w.Asks p call → ¬ Sharing.Effects call) ∧
    (start = none → ∀ disk image, w.store.database = some disk → Survives (tearing .database) disk image →
      ∃ n, image = fileHeader.take n) ∧
    (∀ p call, w.Asks p call → Sharing.Effects call →
      (w.process p).hold.made = true ∧ (call = .write .database 0 fileHeader ∨ call = .sync .database)) ∧
    (∀ p q, (w.process p).hold.made = true → (w.process q).hold.made = true → p = q) ∧
    (∀ p, (w.process p).rest = none → (w.process p).hold.held = (w.process p).db.held ∧
      ((w.process p).db.held = true → ∃ disk, w.store.database = some disk ∧ disk.content = fileHeader ∧
        ((w.process p).hold.made = true → disk = settled fileHeader))) ∧
    (∀ event ∈ events, Tells start event) ∧
    ∀ p path mode, (w.process p).rest = none → (w.process p).db.held = false → path ≠ [] →
      (Prog.run device (dbOpen (w.process p).db path mode) w.store).1.1 = alone mode (w.store.database.map Disk.content) := by
  obtain ⟨sane, told⟩ := runs_sane runs
  have rests : ∀ p, (w.process p).rest = none → Rests (w.process p).hold (w.process p).db := by
    intro p idle
    cases sane.conforms p with
    | idle none rests => exact rests
    | busy act program some follows =>
        rw [idle] at some
        cases some
  refine ⟨fun image same => ?_, fun fresh disk image there survives => ?_, fun p call => sane_effects sane,
    fun p q => sane_alone sane, fun p idle => ⟨(rests p idle).held, fun held => stage_backed sane.stage ((rests p idle).backed held)⟩,
    told, fun p path mode _ closed named => (open_alone closed named).1⟩
  · subst same
    cases sane.stage with
    | absent fresh nothing blank => cases fresh
    | created disk fresh there begun knows alone => cases fresh
    | rest image' origin named there reads =>
        have same : image' = image := by
          rcases origin with same | ⟨none, -⟩
          · exact (Option.some.inj same).symm
          · cases none
        refine ⟨same ▸ there, fun p call asks effects => ?_⟩
        exact absurd ((reads p).made.symm.trans (sane_effects sane asks effects).1) (by decide)
  · cases sane.stage with
    | absent _ nothing blank =>
        rw [nothing] at there
        cases there
    | rest image' origin named there' reads =>
        rw [there'] at there
        cases there
        rcases origin with same | ⟨-, written⟩
        · rw [fresh] at same
          cases same
        · exact survives_settled survives ▸ written
    | created disk' _ there' begun knows alone =>
        rw [there'] at there
        cases there
        exact begun.survives survives

-- An open that finds the file of another creator before its header, which is then written.
theorem early_run : ∃ events w, Runs Step (boot none) events w ∧ (w.process 0).rest = none ∧ (w.process 0).db.held = true ∧
    Event.returned 1 (.openDb [102] .openOrCreate) dbInit (.error .invalidDatabase) dbInit ∈ events := by
  have called := Runs.step (.start (boot none)) (Step.called 0 (.openDb [102] .createNew) rfl)
  have created := Runs.step called (.asked (p := 0) rfl (.served (.create .database)))
  have early := Runs.step created (.called 1 (.openDb [102] .openOrCreate) rfl)
  have opened := Runs.step early (.asked (p := 1) rfl (.served (.open .database)))
  have short := Runs.step opened (.asked (p := 1) rfl (.served (.read .database 0 12)))
  have closed := Runs.step short (.asked (p := 1) rfl (.served (.close .database)))
  have refused := Runs.step closed (show Step _ (.returned 1 (.openDb [102] .openOrCreate) dbInit (.error .invalidDatabase) dbInit) _
    from .returned rfl)
  have partly := Runs.step refused (.progressed (p := 0) 5 rfl)
  have written := Runs.step partly (.asked (p := 0) rfl (.served (.write .database 0 fileHeader)))
  have synced := Runs.step written (.asked (p := 0) rfl (.served (.sync .database)))
  have returned := Runs.step synced (.returned (p := 0) rfl)
  exact ⟨_, _, returned, rfl, rfl, by simp⟩

theorem lifecycle_early : ∃ events w disk, Runs Step (boot none) events w ∧
    Event.returned 1 (.openDb [102] .openOrCreate) dbInit (.error .invalidDatabase) dbInit ∈ events ∧
    w.store.database = some disk ∧ disk.content = fileHeader := by
  obtain ⟨events, w, runs, idle, held, refused⟩ := early_run
  obtain ⟨disk, there, complete, -⟩ := ((lifecycle runs).2.2.2.2.1 0 idle).2 held
  exact ⟨events, w, disk, runs, refused, there, complete⟩

end Timelite.Coexisting
