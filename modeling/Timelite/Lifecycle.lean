import Timelite.BatchApi
import Timelite.CodecLaws
import Timelite.BackendLaws
import Timelite.Discipline

/-!
The version 1 lifecycle API of timelite.c: a handle on one file of exactly twelve
bytes. How one call asks the backend: the header is written by the call that has
created the file, and an open that returns 0 stands for a file it has written and
synced or found valid.
-/
namespace Timelite.Lifecycle
open ByteFile Program Durable Codec CodecLaws Backend BackendLaws BatchApi

/-- `struct timelite_db`: whether it has a file. -/
structure Db where
  held : Bool
  deriving DecidableEq, Repr

def dbInit : Db := ⟨false⟩

/-- What `initialize_file` puts together: the magic and version 1. -/
def fileHeader : Bytes := databaseMagic ++ encode32 1

def initializeFile : Io Unit := do
  let count ← fileWrite .database 0 fileHeader
  Io.require (count = fileHeader.length) (.errno .eio)
  fileSync .database

def validateFile : Io Unit := do
  let header ← fileRead .database 0 12
  Io.require (header.length = 12 ∧ header.take 8 = databaseMagic) .invalidDatabase
  let version := decode32 (header.drop 8)
  Io.require (version ≠ 0) .invalidDatabase
  Io.require (version = 1) .unsupportedVersion
  let size ← fileSize .database
  Io.require (size = 12) .invalidDatabase

/-- The opening part of `timelite_open`. The result says whether the file is new. -/
def obtainFile (mode : OpenMode) : Prog Reply (Except Error Bool) :=
  if mode = .createNew then .ask (.create .database) fun
    | .ok () => .done (.ok true)
    | .error code => .done (.error (.errno code))
  else .ask (.open .database) fun
    | .ok () => .done (.ok false)
    | .error code =>
        if code = .enoent ∧ mode = .openOrCreate then .ask (.create .database) fun
          | .ok () => .done (.ok true)
          | .error code =>
              -- Another creator owns the path. Never initialize its file.
              if code = .eexist then .ask (.open .database) fun
                | .ok () => .done (.ok false)
                | .error code => .done (.error (.errno code))
              else .done (.error (.errno code))
        else .done (.error (.errno code))

/-- A call on a handle: the error and the handle it leaves. -/
abbrev DbOp : Type := Prog Reply (Except Error Unit × Db)

def dbOpen (db : Db) (path : Bytes) (mode : OpenMode) : DbOp :=
  if path = [] ∨ db.held = true then .done (.error (.errno .einval), db)
  else Prog.bind (obtainFile mode) fun
    | .error error => .done (.error error, db)
    | .ok created => Prog.bind (if created then initializeFile else validateFile) fun
        | .error error => .ask (.close .database) fun _ => .done (.error error, db)
        | .ok () => .done (.ok (), ⟨true⟩)

def dbClose (db : Db) : DbOp :=
  if db.held = false then .done (.error (.errno .ebadf), db)
  else .ask (.close .database) fun
    | .ok () => .done (.ok (), ⟨false⟩)
    | .error code => .done (.error (.errno code), ⟨false⟩)

inductive DbAct where
  | openDb (path : Bytes) (mode : OpenMode)
  | closeDb
  deriving DecidableEq, Repr

def DbAct.perform (db : Db) : DbAct → DbOp
  | .openDb path mode => dbOpen db path mode
  | .closeDb => dbClose db

/-- What `validate_file` makes of the first bytes and the size. -/
def judge (header : Bytes) (size : Nat) : Except Error Unit :=
  if ¬ (header.length = 12 ∧ header.take 8 = databaseMagic) then .error .invalidDatabase
  else if decode32 (header.drop 8) = 0 then .error .invalidDatabase
  else if decode32 (header.drop 8) ≠ 1 then .error .unsupportedVersion
  else if size = 12 then .ok () else .error .invalidDatabase

/-- The answer to an open of a file of these bytes. -/
def verdict (image : Bytes) : Except Error Unit := judge (readAt image 0 12) image.length

theorem judge_ok {header : Bytes} {size : Nat} (passed : judge header size = .ok ()) : header = fileHeader ∧ size = 12 := by
  by_cases framed : header.length = 12 ∧ header.take 8 = databaseMagic
  · by_cases version : decode32 (header.drop 8) = 1
    · by_cases sized : size = 12
      · refine ⟨?_, sized⟩
        have last : (header.drop 8).take 4 = encode32 1 := by
          rw [← version]
          exact (holds_decode32 (by omega)).read
        rw [← List.take_append_drop 8 header, framed.2, ← List.take_of_length_le (i := 4) (l := header.drop 8) (by simp [framed.1]),
          last]
        rfl
      · rw [judge, if_neg (not_not_intro framed), if_neg (by omega), if_neg (not_not_intro version), if_neg sized] at passed
        cases passed
    · rw [judge, if_neg (not_not_intro framed)] at passed
      by_cases zero : decode32 (header.drop 8) = 0
      · rw [if_pos zero] at passed
        cases passed
      · rw [if_neg zero, if_pos version] at passed
        cases passed
  · rw [judge, if_pos framed] at passed
    cases passed

section Running
variable {store : Store} {disk : Disk}

theorem on_validate (there : store.database = some disk) : on validateFile store = (verdict disk.content, store) := by
  have content : store.content .database = disk.content := by simp [Store.content, Store.disk, Store.disk?, there]
  simp only [validateFile, on_bind, on_read, on_require, on_size, content, verdict, judge]
  by_cases framed : (readAt disk.content 0 12).length = 12 ∧ (readAt disk.content 0 12).take 8 = databaseMagic
  · by_cases zero : decode32 ((readAt disk.content 0 12).drop 8) = 0
    · simp only [if_pos framed, if_neg (not_not_intro framed), if_pos zero, if_neg (not_not_intro zero)]
    · by_cases version : decode32 ((readAt disk.content 0 12).drop 8) = 1
      · simp only [if_pos framed, if_neg (not_not_intro framed), if_neg zero, if_pos zero, if_pos version,
          if_neg (not_not_intro version), content]
      · simp only [if_pos framed, if_neg (not_not_intro framed), if_neg zero, if_pos zero, if_pos version, if_neg version]
  · simp only [if_neg framed, if_pos framed]

theorem initialize_runs (fresh : store.database = some (settled [])) :
    on initializeFile store = (.ok (), store.put .database (settled fileHeader)) := by
  have empty : store.disk .database = settled [] := by simp [Store.disk, Store.disk?, fresh]
  have written : ((settled []).update (.write 0 fileHeader)).sync = settled fileHeader := rfl
  have stored : (store.update .database (.write 0 fileHeader)).sync .database = store.put .database (settled fileHeader) := by
    rw [Store.sync, disk_update_same, empty, written]
    rfl
  simp only [initializeFile, on_bind, on_write, on_require, on_sync, if_true, stored]

theorem run_obtain_none (absent : store.database = none) (mode : OpenMode) : (obtainFile mode).run device store =
    if mode = .openExisting then (.error (.errno .enoent), store) else (.ok true, store.put .database (settled [])) := by
  have opened : serve (.open .database) store = (.error .enoent, store) := by simp [Backend.serve, Store.disk?, absent]
  have created : serve (.create .database) store = (.ok (), store.put .database (settled [])) := by
    simp [Backend.serve, Store.disk?, absent]
  cases mode <;> simp [obtainFile, Prog.run, device, opened, created]

theorem run_obtain_some (there : store.database = some disk) (mode : OpenMode) : (obtainFile mode).run device store =
    (if mode = .createNew then .error (.errno .eexist) else .ok false, store) := by
  have opened : serve (.open .database) store = (.ok (), store) := by simp [Backend.serve, Store.disk?, there]
  have created : serve (.create .database) store = (.error .eexist, store) := by simp [Backend.serve, Store.disk?, there]
  cases mode <;> simp [obtainFile, Prog.run, device, opened, created]

/-- The answer of the working backend to an open that nobody else disturbs. -/
def alone (mode : OpenMode) : Option Bytes → Except Error Unit
  | none => if mode = .openExisting then .error (.errno .enoent) else .ok ()
  | some image => if mode = .createNew then .error (.errno .eexist) else verdict image

/-- And what becomes of the file. -/
def settle (mode : OpenMode) (store : Store) : Store :=
  if store.database = none ∧ mode ≠ .openExisting then store.put .database (settled fileHeader) else store

theorem open_alone {db : Db} {path : Bytes} {mode : OpenMode} (closed : db.held = false) (named : path ≠ []) :
    (Prog.run device (dbOpen db path mode) store).1.1 = alone mode (store.database.map Disk.content) ∧
      (Prog.run device (dbOpen db path mode) store).2 = settle mode store := by
  have accepted : ¬ (path = [] ∨ db.held = true) := by simp [named, closed]
  have settles : ∀ {program : Prog Reply (Except Error Unit)} {before after : Store} {result : Except Error Unit},
      program.run device before = (result, after) → Prog.run device (Prog.bind program fun
        | .error error => .ask (.close .database) fun _ => .done ((.error error : Except Error Unit), db)
        | .ok () => .done (.ok (), (⟨true⟩ : Db))) before =
          ((result, match result with | .ok () => ⟨true⟩ | .error _ => db), after) := by
    intro program before after result ran
    rw [run_bind, ran]
    cases result <;> rfl
  rw [dbOpen, if_neg accepted, run_bind]
  cases there : store.database with
  | none =>
      have fresh : (store.put .database (settled [])).database = some (settled []) := rfl
      rw [run_obtain_none there, settle, there]
      by_cases existing : mode = .openExisting
      · simp only [if_pos existing, Option.map_none, alone]
        exact ⟨rfl, by simp [existing]⟩
      · simp only [if_neg existing, Option.map_none, alone]
        have ran := settles (initialize_runs fresh)
        refine ⟨congrArg (fun ran => ran.1.1) ran, (congrArg Prod.snd ran).trans ?_⟩
        exact (if_pos ⟨trivial, existing⟩).symm
  | some disk =>
      rw [run_obtain_some there, settle, there]
      by_cases creates : mode = .createNew
      · simp only [if_pos creates, Option.map_some, alone]
        exact ⟨rfl, by simp⟩
      · simp only [if_neg creates, Option.map_some, alone]
        have ran := settles (on_validate there)
        refine ⟨congrArg (fun ran => ran.1.1) ran, (congrArg Prod.snd ran).trans ?_⟩
        exact (if_neg (by simp)).symm

end Running

section Asking

/-- What one process holds, and what its last call on a closed handle has seen. -/
structure Hold where
  held : Bool
  -- The call has created the file, has written the whole header, has synced it.
  made : Bool
  whole : Bool
  synced : Bool
  seen : Option Bytes
  size : Option Nat

def Hold.none : Hold := ⟨false, false, false, false, Option.none, Option.none⟩

/-- A call on a closed handle starts from nothing. -/
def Hold.call (hold : Hold) (db : Db) : Hold := if db.held then hold else .none

def permits (hold : Hold) : Call → Prop
  | .open file => file = .database ∧ hold = .none
  | .create file => file = .database ∧ hold = .none
  | .read file offset length =>
      file = .database ∧ hold.held = true ∧ hold.made = false ∧ offset = 0 ∧ length = 12
  | .size file => file = .database ∧ hold.held = true ∧ hold.made = false
  | .write file offset bytes =>
      file = .database ∧ hold.held = true ∧ hold.made = true ∧ hold.whole = false ∧ offset = 0 ∧ bytes = fileHeader
  | .sync file => file = .database ∧ hold.held = true ∧ hold.made = true ∧ hold.whole = true
  | .close file => file = .database ∧ hold.held = true
  | _ => False

def Hold.after (hold : Hold) : (call : Call) → Reply call → Hold
  | .open _, .ok _ => { hold with held := true }
  | .create _, .ok _ => { hold with held := true, made := true }
  | .read _ _ _, .ok bytes => { hold with seen := some bytes }
  | .size _, .ok size => { hold with size := some size }
  | .write _ _ bytes, .ok count => { hold with whole := decide (count = bytes.length) }
  | .sync _, .ok _ => { hold with synced := true }
  | .close _, _ => { hold with held := false, made := false, whole := false, synced := false }
  | _, _ => hold

/-- How one process asks. -/
def plain : Discipline Reply Hold := ⟨permits, Hold.after⟩

variable {hold : Hold} {db db' : Db} {result : Except Error Unit}

/-- What stands behind an open handle: the header written and synced, or found. -/
def Backed (hold : Hold) : Prop :=
  hold.made = true ∧ hold.synced = true ∨ hold.made = false ∧ hold.seen = some fileHeader ∧ hold.size = some 12

/-- Between two calls the handle stands for what the process holds. -/
structure Rests (hold : Hold) (db : Db) : Prop where
  held : hold.held = db.held
  backed : db.held = true → Backed hold

/-- Where the result of an open comes from: a failed request, the header that the call
has written and synced, or what it has seen. -/
inductive Explained (hold : Hold) (result : Except Error Unit) : Prop where
  | failed (code : Errno) (same : result = .error (.errno code))
  | made (same : result = .ok ()) (synced : hold.made = true ∧ hold.synced = true)
  | seen (unmade : hold.made = false) (header : Bytes) (found : hold.seen = some header)
      (same : ∀ size, (∀ known, hold.size = some known → known = size) → result = judge header size)

/-- What the caller is told of its handle. -/
def Outcome (db : Db) (result : Except Error Unit) (db' : Db) : DbAct → Prop
  | .openDb path _ =>
      if path = [] ∨ db.held = true then result = .error (.errno .einval) ∧ db' = db
      else (result = .ok () ↔ db'.held = true)
  | .closeDb =>
      db'.held = false ∧ (db.held = false → result = .error (.errno .ebadf)) ∧
        (result = .ok () ∨ ∃ code, result = .error (.errno code))

/-- What is known when a call returns. -/
def Returns (act : DbAct) (db : Db) (hold : Hold) (returned : Except Error Unit × Db) : Prop :=
  Rests hold returned.2 ∧ Outcome db returned.1 returned.2 act ∧
    ∀ path mode, act = .openDb path mode → Explained hold returned.1

theorem require_follows {Phase β : Type} {discipline : Discipline Reply Phase} {holds : Phase → Except Error β → Prop}
    {phase : Phase} {condition : Prop} [Decidable condition] {error : Error} {next : Unit → Io β}
    (met : condition → Prog.Follows discipline holds phase (next ())) (unmet : ¬ condition → holds phase (.error error)) :
    Prog.Follows discipline holds phase (Io.bind (Io.require condition error) next) := by
  by_cases here : condition
  · rw [Io.require, if_pos here]
    exact met here
  · rw [Io.require, if_neg here]
    exact unmet here

-- A new file is initialised, or a request failed.
theorem initialize_follows (held : hold.held = true) (made : hold.made = true) (fresh : hold.whole = false) :
    Prog.Follows plain (fun hold' result => hold'.held = true ∧ Explained hold' result ∧ (result = .ok () → Backed hold'))
      hold initializeFile := by
  have failed : ∀ {hold' : Hold} (code : Errno), hold'.held = true → hold'.held = true ∧
      Explained hold' (.error (.errno code)) ∧ ((.error (.errno code) : Except Error Unit) = .ok () → Backed hold') :=
    fun code held => ⟨held, .failed code rfl, fun passed => by cases passed⟩
  refine ⟨⟨rfl, held, made, fresh, rfl, rfl⟩, fun reply => ?_⟩
  cases reply with
  | error code => exact failed code held
  | ok count =>
      refine require_follows (fun whole => ⟨⟨rfl, held, made, decide_eq_true whole⟩, fun reply => ?_⟩) fun _ => failed .eio held
      cases reply with
      | error code => exact failed code held
      | ok done => exact ⟨held, .made rfl ⟨made, rfl⟩, fun _ => .inl ⟨made, rfl⟩⟩

-- An existing file is only read, and the result is what its bytes say.
theorem validate_follows (held : hold.held = true) (made : hold.made = false) :
    Prog.Follows plain (fun hold' result => hold'.held = true ∧ Explained hold' result ∧ (result = .ok () → Backed hold'))
      hold validateFile := by
  refine ⟨⟨rfl, held, made, rfl, rfl⟩, fun reply => ?_⟩
  cases reply with
  | error code => exact ⟨held, .failed code rfl, fun passed => by cases passed⟩
  | ok header =>
      have refused : ∀ error, (∀ size, judge header size = .error error) → hold.held = true ∧
          Explained { hold with seen := some header } (.error error) ∧
          ((.error error : Except Error Unit) = .ok () → Backed { hold with seen := some header }) := fun error same =>
        ⟨held, .seen made header rfl fun size _ => (same size).symm, fun passed => by cases passed⟩
      refine require_follows (fun framed => ?_) fun unframed => refused _ fun size => if_pos unframed
      refine require_follows (fun nonzero => ?_) fun zero => refused _ fun size => ?_
      · refine require_follows (fun version => ⟨⟨rfl, held, made⟩, fun reply => ?_⟩) fun unknown => refused _ fun size => ?_
        · cases reply with
          | error code => exact ⟨held, .failed code rfl, fun passed => by cases passed⟩
          | ok size =>
              have judged : ∀ size, judge header size = if size = 12 then .ok () else .error .invalidDatabase := fun size => by
                rw [judge, if_neg (not_not_intro framed), if_neg nonzero, if_neg (not_not_intro version)]
              have seen : ∀ result, result = judge header size →
                  Explained { hold with seen := some header, size := some size } result := fun result same =>
                .seen made header rfl fun size' known => known size rfl ▸ same
              change Prog.Follows plain _ _ (Io.require (size = 12) .invalidDatabase)
              by_cases exact : size = 12
              · have passed : judge header size = .ok () := by rw [judged, if_pos exact]
                rw [Io.require, if_pos exact]
                refine ⟨held, seen _ passed.symm, fun _ => .inr ⟨made, ?_⟩⟩
                exact ⟨congrArg some (judge_ok passed).1, congrArg some exact⟩
              · rw [Io.require, if_neg exact]
                exact ⟨held, seen _ (by rw [judged, if_neg exact]), fun passed => by cases passed⟩
        · rw [judge, if_neg (not_not_intro framed), if_neg nonzero, if_pos unknown]
      · rw [judge, if_neg (not_not_intro framed), if_pos (not_not.mp zero)]

/-- What a call on a closed handle has after the opening part. -/
def Obtained (hold : Hold) (result : Except Error Bool) : Prop :=
  (∃ code, result = .error (.errno code) ∧ hold = .none) ∨
    ∃ created, result = .ok created ∧ hold = { Hold.none with held := true, made := created }

theorem obtain_follows (mode : OpenMode) : Prog.Follows plain Obtained .none (obtainFile mode) := by
  have failed : ∀ code, Obtained .none (.error (.errno code)) := fun code => .inl ⟨code, rfl, rfl⟩
  have created : Obtained { Hold.none with held := true, made := true } (.ok true) := .inr ⟨true, rfl, rfl⟩
  have opened : Obtained { Hold.none with held := true } (.ok false) := .inr ⟨false, rfl, rfl⟩
  by_cases creates : mode = .createNew
  · rw [obtainFile, if_pos creates]
    refine ⟨⟨rfl, rfl⟩, fun reply => ?_⟩
    cases reply with
    | ok done => exact created
    | error code => exact failed code
  · rw [obtainFile, if_neg creates]
    refine ⟨⟨rfl, rfl⟩, fun reply => ?_⟩
    cases reply with
    | ok done => exact opened
    | error code =>
        simp only
        split
        · refine ⟨⟨rfl, rfl⟩, fun reply => ?_⟩
          cases reply with
          | ok done => exact created
          | error code =>
              simp only
              split
              · refine ⟨⟨rfl, rfl⟩, fun reply => ?_⟩
                cases reply with
                | ok done => exact opened
                | error code => exact failed code
              · exact failed code
        · exact failed code

theorem rests_call (rests : Rests hold db) : Rests (hold.call db) db := by
  unfold Hold.call
  split
  · exact rests
  · rename_i closed
    exact ⟨(Bool.eq_false_iff.mpr closed).symm, fun held => absurd held closed⟩

theorem open_follows {path : Bytes} {mode : OpenMode} (rests : Rests hold db) :
    Prog.Follows plain (Returns (.openDb path mode) db) (hold.call db) (dbOpen db path mode) := by
  by_cases refused : path = [] ∨ db.held = true
  · rw [dbOpen, if_pos refused]
    exact ⟨rests_call rests, (if_pos refused).mpr ⟨rfl, rfl⟩, fun _ _ _ => .failed .einval rfl⟩
  · have closed : db.held = false := by simpa using fun held => refused (.inr held)
    have start : hold.call db = .none := if_neg (by rw [closed]; decide)
    have told : ∀ {result : Except Error Unit} {db' : Db}, (result = .ok () ↔ db'.held = true) →
        Outcome db result db' (.openDb path mode) := fun same => (if_neg refused).mpr same
    rw [dbOpen, if_neg refused, start]
    refine follows_bind (obtain_follows mode) fun hold' result obtained => ?_
    rcases obtained with ⟨code, rfl, rfl⟩ | ⟨created, rfl, rfl⟩
    · refine ⟨⟨closed.symm, fun held => ?_⟩, told ?_, fun _ _ _ => .failed code rfl⟩
      · rw [closed] at held
        cases held
      · simp [closed]
    · have settles : Prog.Follows plain (fun hold' result => hold'.held = true ∧ Explained hold' result ∧
          (result = .ok () → Backed hold')) { Hold.none with held := true, made := created }
          (if created then initializeFile else validateFile) := by
        cases created with
        | true => exact initialize_follows rfl rfl rfl
        | false => exact validate_follows rfl rfl
      refine follows_bind settles fun hold' result ⟨held, explained, backed⟩ => ?_
      cases result with
      | ok done => exact ⟨⟨held, fun _ => backed rfl⟩, told (by simp), fun _ _ _ => explained⟩
      | error error =>
          refine ⟨⟨rfl, held⟩, fun reply => ⟨⟨closed.symm, fun opened => ?_⟩, told (by simp [closed]), fun _ _ _ => ?_⟩⟩
          · rw [closed] at opened
            cases opened
          · cases explained with
            | failed code same => exact .failed code same
            | made same synced => cases same
            | seen unmade header found same => exact .seen rfl header found same

theorem close_follows (rests : Rests hold db) :
    Prog.Follows plain (Returns .closeDb db) (hold.call db) (dbClose db) := by
  by_cases closed : db.held = false
  · rw [dbClose, if_pos closed]
    exact ⟨rests_call rests, ⟨closed, fun _ => rfl, .inr ⟨.ebadf, rfl⟩⟩, fun _ _ same => by cases same⟩
  · have opened : db.held = true := by simpa using closed
    have held : hold.held = true := rests.held.trans opened
    have start : hold.call db = hold := if_pos opened
    have after : ∀ (reply : Reply (.close .database)) (result : Except Error Unit),
        (result = .ok () ∨ ∃ code, result = .error (.errno code)) →
        Returns .closeDb db (hold.after (.close .database) reply) (result, ⟨false⟩) := fun reply result answer =>
      ⟨⟨rfl, fun held => by cases held⟩, ⟨rfl, fun closed' => absurd closed' closed, answer⟩, fun _ _ same => by cases same⟩
    rw [dbClose, if_neg closed, start]
    refine ⟨⟨rfl, held⟩, fun reply => ?_⟩
    cases reply with
    | ok done => exact after (.ok done) _ (.inl rfl)
    | error code => exact after (.error code) _ (.inr ⟨code, rfl⟩)

theorem perform_follows (rests : Rests hold db) (act : DbAct) :
    Prog.Follows plain (Returns act db) (hold.call db) (act.perform db) := by
  cases act with
  | openDb path mode => exact open_follows rests
  | closeDb => exact close_follows rests

end Asking

end Timelite.Lifecycle
