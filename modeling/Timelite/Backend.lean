import Timelite.Codec
import Timelite.Program
import Timelite.Durable

/-!
The file backend of file_io.h as requests, the error codes of timelite.h, and
the monad in which the functions of timelite.c are written. A file is named by
its role in the pair: the library never has two handles of one role. A backend
read fills the request or stops at the end of the file, a write is complete.
-/
namespace Timelite.Backend
open ByteFile Program Durable Codec

inductive File where
  | database
  | wal
  deriving DecidableEq, Repr

inductive Errno where
  | einval | ebadf | ebusy | eio | enoent | eexist | enotsup | enospc | eoverflow
  | other (code : Nat)
  deriving DecidableEq, Repr

inductive Error where
  | invalidDatabase
  | unsupportedVersion
  | endOfData
  | bufferTooSmall
  | recoveryRequired
  | walFull
  | pairMismatch
  | databaseFull
  | outOfOrder
  | errno (code : Errno)
  deriving DecidableEq, Repr

inductive Call where
  | open (file : File)
  | create (file : File)
  | lock (file : File)
  | identity
  | read (file : File) (offset length : Nat)
  | write (file : File) (offset : Nat) (bytes : Bytes)
  | size (file : File)
  | truncate (file : File) (size : Nat)
  | sync (file : File)
  | provision (file : File)
  | close (file : File)
  deriving DecidableEq, Repr

abbrev Call.Answer : Call → Type
  | .identity => Bytes
  | .read _ _ _ => Bytes
  | .write _ _ _ => Nat
  | .size _ => Nat
  | _ => Unit

abbrev Reply (call : Call) : Type := Except Errno call.Answer

/-- The two files of a pair and the next identity the system hands out. A file
that does not exist is `none`. -/
structure Store where
  database : Option Disk
  wal : Option Disk
  entropy : Bytes
  deriving DecidableEq, Repr

def Store.disk? (store : Store) : File → Option Disk
  | .database => store.database
  | .wal => store.wal

def Store.disk (store : Store) (file : File) : Disk := (store.disk? file).getD (settled [])

def Store.content (store : Store) (file : File) : Bytes := (store.disk file).content

def Store.put (store : Store) : File → Disk → Store
  | .database, disk => { store with database := some disk }
  | .wal, disk => { store with wal := some disk }

def Store.update (store : Store) (file : File) (change : Update) : Store :=
  store.put file ((store.disk file).update change)

def Store.sync (store : Store) (file : File) : Store := store.put file (store.disk file).sync

/-- The working backend. -/
def serve : (call : Call) → Store → Reply call × Store
  | .open file, store =>
      if (store.disk? file).isSome then (.ok (), store) else (.error .enoent, store)
  | .create file, store =>
      if (store.disk? file).isSome then (.error .eexist, store)
      else (.ok (), store.put file (settled []))
  | .lock _, store => (.ok (), store)
  | .identity, store => (.ok store.entropy, store)
  | .read file offset length, store => (.ok (readAt (store.content file) offset length), store)
  | .write file offset bytes, store => (.ok bytes.length, store.update file (.write offset bytes))
  | .size file, store => (.ok (store.content file).length, store)
  | .truncate file size, store => (.ok (), store.update file (.truncate size))
  | .sync file, store => (.ok (), store.sync file)
  | .provision file, store => (.ok (), store.sync file)
  | .close _, store => (.ok (), store)

/-- The slot of a database image at `offset`. -/
def slotBytes (file : Bytes) (offset : Nat) : Bytes := readAt file offset 64

/-- A torn manifest fails its checksum: a cut write at a slot offset leaves the
old slot, the slot the whole write leaves, or one whose checksum is wrong. -/
def slotTear (file : Bytes) (offset : Nat) (bytes : Bytes) (count : Nat) : Prop :=
  offset = 32 ∨ offset = 96 →
    let torn := slotBytes (writeAt file offset (bytes.take count)) offset
    torn = slotBytes file offset ∨ torn = slotBytes (writeAt file offset bytes) offset ∨
      checksum (torn.take 60) ≠ decode32 (torn.drop 60)

theorem slot_tear_nested {file : Bytes} {offset : Nat} {bytes : Bytes} {first second : Nat}
    (outer : slotTear file offset bytes first) (inner : slotTear file offset (bytes.take first) second) :
    slotTear file offset bytes (min second first) := by
  intro slot
  have cut := inner slot
  simp only [List.take_take] at cut ⊢
  rcases cut with old | whole | bad
  · exact .inl old
  · have rest := outer slot
    rw [whole]
    exact rest
  · exact .inr (.inr bad)

def tearing : File → Tearing
  | .database => ⟨slotTear, slot_tear_nested⟩
  | .wal => anywhere

/-- A request that fails: before its effect, after it, or, for a write, after a
prefix of its bytes. Failing to find or to refuse an existing file is not a
fault but an answer. -/
inductive Fault : (call : Call) → Store → Reply call → Store → Prop where
  | before (call : Call) (store : Store) (code : Errno) (known : code ≠ .enoent ∧ code ≠ .eexist) :
      Fault call store (.error code) store
  | write (file : File) (offset : Nat) (bytes : Bytes) (count : Nat) (store : Store) (code : Errno)
      (cut : (tearing file).allows (store.content file) offset bytes count) :
      Fault (.write file offset bytes) store (.error code)
        (store.update file (.write offset (bytes.take count)))
  | truncate (file : File) (size : Nat) (store : Store) (code : Errno) :
      Fault (.truncate file size) store (.error code) (store.update file (.truncate size))
  | sync (file : File) (store : Store) (code : Errno) :
      Fault (.sync file) store (.error code) (store.sync file)
  | provision (file : File) (store : Store) (code : Errno) :
      Fault (.provision file) store (.error code) (store.sync file)
  | create (file : File) (store : Store) (code : Errno) (fresh : store.disk? file = none)
      (known : code ≠ .eexist) :
      Fault (.create file) store (.error code) (store.put file (settled []))

def device : Program.Backend Reply Store := ⟨serve, Fault⟩

section Monad

/-- A function that returns an `int` error or its outputs. -/
def Io (α : Type) : Type := Prog Reply (Except Error α)

namespace Io
variable {α β : Type}

def fail (error : Error) : Io α := .done (.error error)

def bind (first : Io α) (next : α → Io β) : Io β :=
  Prog.bind first fun
    | .ok value => next value
    | .error error => .done (.error error)

instance : Monad Io where
  pure value := Prog.done (.ok value)
  bind := bind

def perform (call : Call) : Io call.Answer :=
  .ask call fun
    | .ok answer => .done (.ok answer)
    | .error code => .done (.error (.errno code))

-- The caller looks at the error itself.
def examine (first : Io α) (next : Except Error α → Io β) : Io β := Prog.bind first next

def require (condition : Prop) [Decidable condition] (error : Error) : Io Unit :=
  if condition then pure () else fail error

end Io

-- Results a failed request leads to.
def Failed {α : Type} (result : Except Error α) : Prop := ∃ code, result = .error (.errno code)

end Monad

section Transfers

def fileRead (file : File) (offset length : Nat) : Io Bytes := Io.perform (.read file offset length)

def fileWrite (file : File) (offset : Nat) (bytes : Bytes) : Io Nat :=
  Io.perform (.write file offset bytes)

def readExact (file : File) (offset length : Nat) : Io Bytes := do
  let bytes ← fileRead file offset length
  Io.require (bytes.length = length) .invalidDatabase
  pure bytes

def writeExact (file : File) (offset : Nat) (bytes : Bytes) : Io Unit := do
  let count ← fileWrite file offset bytes
  Io.require (count = bytes.length) (.errno .eio)

def fileSync (file : File) : Io Unit := Io.perform (.sync file)
def fileProvision (file : File) : Io Unit := Io.perform (.provision file)
def fileTruncate (file : File) (size : Nat) : Io Unit := Io.perform (.truncate file size)
def fileSize (file : File) : Io Nat := Io.perform (.size file)
def fileLock (file : File) : Io Unit := Io.perform (.lock file)

end Transfers

end Timelite.Backend
