import Timelite.Opening

/-!
CREATE_NEW: the only pair open makes is an empty one under its first manifest,
and open returns 0 for it only when nothing failed.
-/
namespace Timelite.Creating
open ByteFile Program Durable Codec CodecLaws Backend BackendLaws Layout HeaderWalk SlotLaws Contents Images Crashes
  Databases Calls Cursor Reader BatchApi Opening

section Headers
variable {identity : Bytes}

-- What createHeaders leaves in the two files.
def createdDatabase (identity : Bytes) : Bytes :=
  encodePair databaseMagic identity ++ encodeManifest 0 dataStart 0 0 0 ++ List.replicate 64 0

def createdWal (identity : Bytes) : Bytes := encodePair walMagic identity

def createdManifests : Manifests := ⟨false, 0, 160, 0, 0, 0, false, ⟨0, 160, 0, false⟩⟩

theorem created_length (wide : identity.length = 16) : (createdDatabase identity).length = 160 := by
  simp only [createdDatabase, List.length_append, pair_length, manifest_length, List.length_replicate, wide,
    databaseMagic, List.length_cons, List.length_nil]

theorem created_parts (wide : identity.length = 16) :
    Holds (createdDatabase identity) 0 (encodePair databaseMagic identity) ∧
      slotBytes (createdDatabase identity) 32 = encodeManifest 0 160 0 0 0 ∧
      slotBytes (createdDatabase identity) 96 = List.replicate 64 0 := by
  have whole := holds_self (createdDatabase identity)
  rw [createdDatabase, holds_append, holds_append] at whole
  obtain ⟨⟨pair, manifest⟩, blank⟩ := whole
  have size : (encodePair databaseMagic identity).length = 32 := by
    simp only [pair_length, wide, databaseMagic, List.length_cons, List.length_nil]
  rw [List.length_append, manifest_length, size] at blank
  rw [size] at manifest
  rw [Holds, manifest_length] at manifest
  rw [Holds, List.length_replicate] at blank
  exact ⟨pair, manifest, blank⟩

-- The slot that the first checkpoint will write is blank.
theorem created_blank (wide : identity.length = 16) (size : Nat) (other : Manifests) :
    ¬ SlotHas (createdDatabase identity) 1 size other := by
  obtain ⟨_, _, second⟩ := created_parts wide
  rintro ⟨_, found⟩
  have blank : slotManifest 1 (slotBytes (createdDatabase identity) 96) size = none :=
    blank_slot (by rw [second]; exact holds_self _)
  rw [show 32 + 64 * 1 = 96 from rfl, blank] at found
  cases found

theorem created_stored (wide : identity.length = 16) :
    Stored (createdDatabase identity) identity .empty createdManifests := by
  obtain ⟨pair, first, _⟩ := created_parts wide
  have length := created_length wide
  refine ⟨selected_of ⟨?_, ?_⟩ fun other has => ?_, fun size other has => ?_, ?_⟩
  · change (slotBytes (createdDatabase identity) 32).length = 64
    rw [first, manifest_length]
  · change slotManifest 0 (slotBytes (createdDatabase identity) 32) _ = _
    exact created_slot (by rw [first]; exact holds_self _) (by rw [length])
  · exact absurd has (created_blank wide _ other)
  · exact absurd has (created_blank wide size other)
  · exact {
      pair := pair
      held := by simp [createdManifests, Content.empty]
      above := Nat.le_refl _
      extent := rfl
      capacity := by decide
      generation := rfl
      last := rfl
      tail := fun time => by cases time
      agrees := fun _ none => by cases none
      time := rfl
      gapless := fun _ => ⟨trivial, rfl⟩ }

theorem created_logged (wide : identity.length = 16) : Logged (createdWal identity) identity .empty [] := by
  refine ⟨by simp [createdWal, Content.empty], .none, fun some => absurd rfl some, ?_⟩
  rw [createdWal, Images.wal_length wide]
  decide

end Headers

section Making
variable {store : Store} {db : Batches} {scratchSize : Nat}

def made (store : Store) : Store :=
  (((store.put .database (settled [])).put .wal (settled [])).update .database
      (.write 0 (createdDatabase store.entropy))).update .wal (.write 0 (createdWal store.entropy))

theorem write_first (bytes : Bytes) : writeAt [] 0 bytes = bytes := by
  unfold writeAt
  split
  · rename_i empty
    exact empty.symm
  · simp

theorem made_content (store : Store) :
    (made store).content .database = createdDatabase store.entropy ∧
      (made store).content .wal = createdWal store.entropy := by
  have whole := write_first
  constructor
  · rw [made, content_update_wal, content_update_same]
    exact whole _
  · rw [made, content_update_same]
    exact whole _

theorem fault_error {call : Call} {after : Store} {reply : Reply call} (fault : Fault call store reply after) :
    ∃ code, reply = .error code := by
  cases fault <;> exact ⟨_, rfl⟩

/-- What a cut of the creation can leave: each file is absent, or a first part of its header. -/
structure Begun (identity : Bytes) (store : Store) : Prop where
  database : ∀ disk, store.database = some disk → Always (tearing .database) (· <+: createdDatabase identity) disk
  wal : ∀ disk, store.wal = some disk → Always (tearing .wal) (· <+: createdWal identity) disk

theorem begun_safe {identity : Bytes}
    (safe : Safe (fun d w => d <+: createdDatabase identity ∧ w <+: createdWal identity) store) : Begun identity store where
  database := fun disk there image survives => by
    have same : store.disk .database = disk := by rw [Store.disk, Store.disk?, there, Option.getD_some]
    exact (safe.images image _ ⟨same ▸ survives, survives_content _⟩).1
  wal := fun disk there image survives => by
    have same : store.disk .wal = disk := by rw [Store.disk, Store.disk?, there, Option.getD_some]
    exact (safe.images _ image ⟨survives_content _, same ▸ survives⟩).2

theorem Begun.safe {identity : Bytes} (begun : Begun identity store) (database : store.database.isSome = true)
    (wal : store.wal.isSome = true) :
    Safe (fun d w => d <+: createdDatabase identity ∧ w <+: createdWal identity) store := by
  obtain ⟨first, there⟩ := Option.isSome_iff_exists.mp database
  obtain ⟨second, there'⟩ := Option.isSome_iff_exists.mp wal
  refine ⟨database, wal, fun d w survives => ?_⟩
  rw [Surviving, Store.disk, Store.disk, Store.disk?, Store.disk?, there, there', Option.getD_some, Option.getD_some] at survives
  exact ⟨begun.database first there d survives.1, begun.wal second there' w survives.2⟩

-- The first write to a new file, whole or cut.
theorem begins_write (file : File) (bytes : Bytes) (count : Nat) :
    Always (tearing file) (· <+: bytes) ((settled []).update (.write 0 (bytes.take count))) := by
  have part : ∀ count, writeAt (settled []).content 0 (bytes.take count) <+: bytes := fun count => by
    rw [content_settled, write_first]
    exact List.take_prefix _ _
  have blank : Always (tearing file) (· <+: bytes) (settled []) := always_settled List.nil_prefix
  refine blank.write (part count) fun fewer _ => ?_
  rw [List.take_take]
  exact part _

theorem create_pair (fresh : store.database = none ∧ store.wal = none) :
    Does device (Begun store.entropy) Unacquired (createPair .createNew) store (.ok true, ⟨true, true⟩) (made store) := by
  have gives : ∀ (error : Error) (owned : Owned) (state : Store), Begun store.entropy state →
      Quits device (Begun store.entropy) Unacquired (.done (.error error, owned) : Prog Reply (Except Error Bool × Owned))
        state := fun error owned state begun => quits_done device begun ⟨error, rfl⟩
  have blank : ∀ file (bytes : Bytes), Always (tearing file) (· <+: bytes) (settled []) :=
    fun file bytes => always_settled List.nil_prefix
  have bare : Begun store.entropy store :=
    ⟨fun disk there => (by rw [fresh.1] at there; cases there), fun disk there => (by rw [fresh.2] at there; cases there)⟩
  have first : Begun store.entropy (store.put .database (settled [])) :=
    ⟨fun disk there => (by cases there; exact blank _ _), fun disk there => bare.wal disk there⟩
  have second : Begun store.entropy ((store.put .database (settled [])).put .wal (settled [])) :=
    ⟨first.database, fun disk there => (by cases there; exact blank _ _)⟩
  have third : ∀ count, Begun store.entropy (((store.put .database (settled [])).put .wal (settled [])).update .database
      (.write 0 ((createdDatabase store.entropy).take count))) := fun count =>
    ⟨fun disk there => (by cases there; exact begins_write _ _ _), second.wal⟩
  have whole : Begun store.entropy (((store.put .database (settled [])).put .wal (settled [])).update .database
      (.write 0 (createdDatabase store.entropy))) := by
    have all := third (createdDatabase store.entropy).length
    rwa [List.take_length] at all
  have fourth : ∀ count, Begun store.entropy ((((store.put .database (settled [])).put .wal (settled [])).update .database
      (.write 0 (createdDatabase store.entropy))).update .wal (.write 0 ((createdWal store.entropy).take count))) := fun count =>
    ⟨whole.database, fun disk there => (by cases there; exact begins_write _ _ _)⟩
  have last : Begun store.entropy (made store) := by
    have all := fourth (createdWal store.entropy).length
    rwa [List.take_length] at all
  have absent : Backend.serve (.open .wal) store = (.error .enoent, store) := by
    simp [Backend.serve, Store.disk?, fresh.2]
  have database : Backend.serve (.create .database) store = (.ok (), store.put .database (settled [])) := by
    simp [Backend.serve, Store.disk?, fresh.1]
  have wal : Backend.serve (.create .wal) (store.put .database (settled [])) =
      (.ok (), (store.put .database (settled [])).put .wal (settled [])) := by
    simp [Backend.serve, Store.disk?, Store.put, fresh.2]
  have headers : Runs (Begun store.entropy) (createHeaders store.entropy)
      ((store.put .database (settled [])).put .wal (settled [])) () (made store) :=
    runs_bind (runs_write .database 0 _ second whole fun count _ => third count)
      (runs_write .wal 0 _ whole last fun count _ => fourth count)
  unfold createPair
  refine does_ask bare absent (fun reply middle fault => ?_) ?_
  · cases fault with
    | before call store code known =>
        simp only [ne_eq, known.1, not_false_eq_true, if_true]
        exact gives _ _ _ bare
  refine does_ask bare (show Backend.serve .identity store = (.ok store.entropy, store) from rfl)
    (fun reply middle fault => ?_) ?_
  · cases fault with
    | before call store code known => exact gives _ _ _ bare
  refine does_ask bare database (fun reply middle fault => ?_) ?_
  · cases fault with
    | before call store code known =>
        simp only [known.2, false_and, if_false]
        exact gives _ _ _ bare
    | create file store code absent known =>
        simp only [known, false_and, if_false]
        exact gives _ _ _ first
  refine does_ask first (show Backend.serve (.lock .database) _ = (.ok (), _) from rfl)
    (fun reply middle fault => ?_) ?_
  · cases fault with
    | before call store code known => exact gives _ _ _ first
  refine does_ask first wal (fun reply middle fault => ?_) ?_
  · cases fault with
    | before call store code known => exact gives _ _ _ first
    | create file store code absent known => exact gives _ _ _ second
  refine Does.bind headers ?_ (.done last)
  rintro result state ⟨code, rfl⟩ kept
  exact gives _ _ _ kept

-- A file that is already there is never replaced.
theorem create_taken (taken : store.wal.isSome = true ∨ store.database.isSome = true) :
    ∃ error owned, Does device (fun _ => True) Unacquired (createPair .createNew) store (.error error, owned) store := by
  have gives : ∀ (error : Error) (owned : Owned) (state : Store),
      Quits device (fun _ => True) Unacquired (.done (.error error, owned) : Prog Reply (Except Error Bool × Owned))
        state := fun error owned state => quits_done device trivial ⟨error, rfl⟩
  by_cases orphan : store.wal.isSome = true
  · have there : Backend.serve (.open .wal) store = (.ok (), store) := by
      simp only [Backend.serve, Store.disk?, orphan, if_true]
    refine ⟨_, _, does_ask trivial there (fun reply middle fault => ?_) (.done trivial)⟩
    cases fault with
    | before call store code known =>
        simp only [ne_eq, known.1, not_false_eq_true, if_true]
        exact gives _ _ _
  · have absent : Backend.serve (.open .wal) store = (.error .enoent, store) := by
      simp only [Backend.serve, Store.disk?, orphan, Bool.false_eq_true, if_false]
    have there : Backend.serve (.create .database) store = (.error .eexist, store) := by
      simp only [Backend.serve, Store.disk?, taken.resolve_left orphan, if_true]
    refine ⟨.errno .eexist, ⟨false, false⟩, does_ask trivial absent (fun reply middle fault => ?_) ?_⟩
    · cases fault with
      | before call store code known =>
          simp only [ne_eq, known.1, not_false_eq_true, if_true]
          exact gives _ _ _
    refine does_ask trivial (show Backend.serve .identity store = (.ok store.entropy, store) from rfl)
      (fun reply middle fault => ?_) ?_
    · obtain ⟨code, rfl⟩ := fault_error fault
      exact gives _ _ _
    refine does_ask trivial there (fun reply middle fault => ?_) (.done trivial)
    obtain ⟨code, rfl⟩ := fault_error fault
    simp only [reduceCtorEq, and_false, if_false]
    exact gives _ _ _

theorem acquire_create : acquire .createNew = createPair .createNew := if_pos rfl

theorem create_fresh (fresh : store.database = none ∧ store.wal = none) (wide : store.entropy.length = 16)
    (closed : db.database = false ∧ db.wal = false) (large : batchScratch ≤ scratchSize) :
    ∃ handle after, Does device (Begun store.entropy) (Refused db) (batchesOpen db .createNew scratchSize) store
        (.ok (), handle) after ∧
      Settled after handle store.entropy .empty createdManifests ∧
      after.content .database = createdDatabase store.entropy ∧ Delivers handle .empty 1 := by
  obtain ⟨database, wal⟩ := made_content store
  have stored : Stored ((made store).content .database) store.entropy .empty createdManifests := by
    rw [database]
    exact created_stored wide
  have slack : Slack ((made store).content .database) .empty createdManifests := by
    intro _
    rw [database, created_length wide]
    exact .inl (Nat.le_refl 160)
  have replays : Replays True store.entropy .empty ((made store).content .wal) := by
    rw [wal]
    exact .logged [] (created_logged wide) fun _ => .inl rfl
  have begun : Begun store.entropy (made store) := (create_pair fresh).safe_after
  obtain ⟨after, handle, m', runs, settled, delivers, _, change⟩ :=
    @recover_runs False (fun d w => d <+: createdDatabase store.entropy ∧ w <+: createdWal store.entropy) (made store)
      store.entropy .empty createdManifests (begun.safe rfl rfl) wide
      stored.installed (selected_chosen stored.current) slack (fun busy => absurd rfl busy)
      (fun busy => absurd rfl busy) (fun busy => absurd rfl busy) replays fun d w left right => by
        have whole : resize (createdWal store.entropy) Content.empty.walEnd = createdWal store.entropy := by
          have size : (createdWal store.entropy).length = Content.empty.walEnd := wal_length wide
          rw [← size, resize_self]
        refine ⟨?_, ?_⟩
        · rw [left.resolve_right fun never => never.1 rfl, database]
        · rcases right with rfl | rfl
          · rw [wal]
          · rw [wal, whole]
  obtain ⟨_, rfl, same⟩ | ⟨busy, _⟩ := change
  · refine ⟨handle, after, ?_, settled, same.trans database, delivers⟩
    rw [open_acquires closed large]
    refine Does.bind (acquire_create ▸ create_pair fresh) ?_ ?_
    · rintro ⟨result, owned⟩ state ⟨error, failed⟩ kept
      simp only at failed
      subst failed
      exact quits_fail_open owned error kept
    · exact Does.weaken (does_opened runs) (fun _ => begun_safe) fun _ bad => bad
  · exact absurd rfl busy

/-- The pair of a CREATE_NEW open that returned 0. -/
theorem created_by {after : Store} {handle : Batches} (wide : store.entropy.length = 16)
    (execution : Exec device (batchesOpen db .createNew scratchSize) store (some (.ok (), handle)) after) :
    Settled after handle store.entropy .empty createdManifests ∧
      after.content .database = createdDatabase store.entropy ∧ Delivers handle .empty 1 := by
  have quiet : ∀ {value : Except Error Unit × Batches} {last : Store},
      Does device (fun _ => True) (Refused db) (batchesOpen db .createNew scratchSize) store value last →
      (.ok (), handle) = value ∧ after = last := by
    intro value last triple
    rcases (triple.sound execution).2 _ rfl with same | ⟨error, refused⟩
    · exact same
    · cases refused
  by_cases closed : db.database = false ∧ db.wal = false
  · by_cases large : batchScratch ≤ scratchSize
    · by_cases fresh : store.database = none ∧ store.wal = none
      · obtain ⟨handle', after', triple, rest⟩ := create_fresh fresh wide closed large
        obtain ⟨same, rfl⟩ := quiet (triple.weaken (fun _ _ => trivial) fun _ bad => bad)
        cases same
        exact rest
      · have taken : store.wal.isSome = true ∨ store.database.isSome = true := by
          rw [Option.isSome_iff_ne_none, Option.isSome_iff_ne_none]
          tauto
        obtain ⟨error, owned, triple⟩ := create_taken taken
        have refused : Does device (fun _ => True) (Refused db) (batchesOpen db .createNew scratchSize) store
            (.error error, db) store := by
          rw [open_acquires closed large]
          refine Does.bind (acquire_create ▸ triple) ?_ (does_fail_open _ _ trivial)
          rintro ⟨result, owned⟩ state ⟨error, failed⟩ kept
          simp only at failed
          subst failed
          exact quits_fail_open owned error kept
        cases (quiet refused).1
    · rw [open_small closed (by omega)] at quiet
      cases (quiet (.done trivial)).1
  · have held : db.database = true ∨ db.wal = true := by
      simp only [Bool.not_eq_true', ← Bool.not_eq_true] at closed
      tauto
    rw [open_held held] at quiet
    cases (quiet (.done trivial)).1

end Making

end Timelite.Creating
