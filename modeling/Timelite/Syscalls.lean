import Timelite.Lowering
import Timelite.Transfers

/-!
file_io.c over the system calls of Linux: where the source has a branch for macOS
(F_FULLFSYNC and the second flush, getentropy, the filesystem names) the other branch
stands here. A loop repeats an interrupted call at most `fuel` times; pointer arguments
are Lean values, and a path is given to each file.
-/
namespace Timelite.Syscalls
open ByteFile Program Lowering Backend
open Transfers (PosixError PosixCall PosixReply posixRead posixWrite int64Max)

structure Stat where
  regular : Bool
  size : Int
  device : Nat
  inode : Nat
  deriving DecidableEq, Repr

/-- `exclusive` is O_CREAT | O_EXCL. -/
inductive SysCall where
  | open (path : Bytes) (exclusive : Bool)
  | openDirectory (path : Bytes)
  | fstat (fd : Int)
  | fstatat (directory : Int) (name : Bytes)
  | fstatfs (fd : Int)
  | flock (fd : Int)
  | transfer (fd : Int) (call : PosixCall)
  | ftruncate (fd : Int) (size : Nat)
  | fdatasync (fd : Int)
  | fsync (fd : Int)
  | getrandom (count : Nat)
  | close (fd : Int)
  deriving DecidableEq, Repr

abbrev SysCall.Answer : SysCall → Type
  | .open _ _ | .openDirectory _ => Int
  | .fstat _ | .fstatat _ _ => Stat
  | .fstatfs _ => Nat
  | .transfer _ call => call.Answer
  | .getrandom _ => Bytes
  | _ => Unit

abbrev SysReply (call : SysCall) : Type := Except PosixError call.Answer

/-- The codes without a name of their own have their number. -/
def reported : Transfers.Errno → Errno
  | .eacces => .other 13
  | .ebadf => .ebadf
  | .eexist => .eexist
  | .efbig => .other 27
  | .eilseq => .other 84
  | .einval => .einval
  | .eio => .eio
  | .emfile => .other 24
  | .enametoolong => .other 36
  | .enoent => .enoent
  | .enomem => .other 12
  | .enospc => .enospc
  | .enotsup => .enotsup
  | .eoverflow => .eoverflow
  | .other code => .other code

def eintr : Errno := .other 4
def ewouldblock : Errno := .other 11
def enametoolong : Errno := .other 36

-- `errno` after a failed call.
def errno : PosixError → Errno
  | .eintr => eintr
  | .errno code => reported code

/-- A function over the system calls, which may still be repeating an interrupted one. -/
abbrev Sys (α : Type) : Type := Fallible SysReply Errno α

namespace Sys

def once (call : SysCall) : Sys call.Answer :=
  .ask call fun
    | .ok answer => .done (some (.ok answer))
    | .error error => Fallible.fail (errno error)

/-- `do … while (result < 0 && errno == EINTR)`. -/
def retry (call : SysCall) : (fuel : Nat) → Sys call.Answer
  | 0 => .done none
  | fuel + 1 => .ask call fun
      | .ok answer => .done (some (.ok answer))
      | .error .eintr => retry call fuel
      | .error (.errno code) => Fallible.fail (reported code)

end Sys

/-- `struct timelite_file`; -1 is closed. -/
structure TimeliteFile where
  fd : Int
  deriving DecidableEq, Repr

def TimeliteFile.closed : TimeliteFile := ⟨-1⟩

def checkFile (file : TimeliteFile) : Sys Unit := Fallible.require (0 ≤ file.fd) .ebadf

/-- `(void)close(fd)`, and the error from before. -/
def abandon {α : Type} (fd : Int) (code : Errno) : Sys α := .ask (.close fd) fun _ => Fallible.fail code

def openFile (fuel : Nat) (file : TimeliteFile) (path : Bytes) (exclusive : Bool) : Sys TimeliteFile := do
  Fallible.require (path ≠ []) .einval
  Fallible.require (file.fd = -1) .einval
  let fd ← Sys.retry (.open path exclusive) fuel
  Fallible.examine (Sys.retry (.fstat fd) fuel) fun
    | .ok info => if info.regular then pure ⟨fd⟩ else abandon fd .einval
    | .error code => abandon fd code

def fileOpen (fuel : Nat) (file : TimeliteFile) (path : Bytes) : Sys TimeliteFile := openFile fuel file path false

def fileCreate (fuel : Nat) (file : TimeliteFile) (path : Bytes) : Sys TimeliteFile := openFile fuel file path true

def fileLock (file : TimeliteFile) : Sys Unit := do
  checkFile file
  Fallible.examine (Sys.once (.flock file.fd)) fun
    | .ok () => pure ()
    | .error code => Fallible.fail (if code = ewouldblock then .ebusy else code)

/-- The native transfers of one open file. -/
def onDescriptor {α : Type} (fd : Int) : Prog PosixReply α → Prog SysReply α := embed (.transfer fd) fun _ reply => reply

-- The caller looks at the count only after a success.
def transferred {α Request : Type} {Reply : Request → Type} : Except Transfers.Errno Unit × α → Fallible Reply Errno α
  | (.ok (), moved) => pure moved
  | (.error code, _) => Fallible.fail (reported code)

def fileRead (fuel ssizeMax : Nat) (file : TimeliteFile) (offset length : Nat) : Sys Bytes :=
  (onDescriptor file.fd (posixRead (decide (0 ≤ file.fd)) ssizeMax offset length fuel)).bind (chain transferred)

def fileWrite (fuel ssizeMax : Nat) (file : TimeliteFile) (offset : Nat) (buffer : Bytes) : Sys Nat :=
  (onDescriptor file.fd (posixWrite (decide (0 ≤ file.fd)) ssizeMax offset buffer fuel)).bind (chain transferred)

def fileSize (fuel : Nat) (file : TimeliteFile) : Sys Nat := do
  checkFile file
  let info ← Sys.retry (.fstat file.fd) fuel
  Fallible.require (0 ≤ info.size) .eoverflow
  pure info.size.toNat

def fileTruncate (fuel : Nat) (file : TimeliteFile) (size : Nat) : Sys Unit := do
  checkFile file
  Fallible.require (size ≤ int64Max) .eoverflow
  Sys.retry (.ftruncate file.fd size) fuel

def fileSync (fuel : Nat) (file : TimeliteFile) : Sys Unit := do
  checkFile file
  Sys.retry (.fdatasync file.fd) fuel

/-- The handle is consumed whatever the call says; it is not repeated. -/
def fileClose (file : TimeliteFile) : Prog SysReply (Option (Except Errno Unit × TimeliteFile)) :=
  if file.fd < 0 then .done (some (.error .ebadf, file))
  else .ask (.close file.fd) fun
    | .ok () => .done (some (.ok (), .closed))
    | .error error => .done (some (.error (errno error), .closed))

def fileIdentity (fuel : Nat) : Sys Bytes := do
  let identity ← Sys.retry (.getrandom 16) fuel
  Fallible.require (identity.length = 16) .eio
  pure identity

section Provision

def slash : UInt8 := 47

/-- The parent directory and the name, as `strrchr` splits the path. -/
def splitPath (path : Bytes) : Bytes × Bytes :=
  match path.reverse.findIdx? (· = slash) with
  | none => ([46], path)
  | some back =>
      let length := path.length - back - 1
      (path.take (if length = 0 then 1 else length), path.drop (length + 1))

/-- ext2 to ext4, XFS and Btrfs. -/
def supportedFilesystem (type : Nat) : Prop := type = 0xef53 ∨ type = 0x58465342 ∨ type = 0x9123683e

instance (type : Nat) : Decidable (supportedFilesystem type) := inferInstanceAs (Decidable (_ ∨ _))

def sameFile (opened named : Stat) : Prop := named.regular = true ∧ opened.device = named.device ∧ opened.inode = named.inode

instance (opened named : Stat) : Decidable (sameFile opened named) := inferInstanceAs (Decidable (_ ∧ _))

-- Everything between opening and closing the directory.
def provisionIn (fuel : Nat) (file : TimeliteFile) (directory : Int) (name : Bytes) : Sys Unit := do
  let opened ← Sys.once (.fstat file.fd)
  let named ← Sys.once (.fstatat directory name)
  let filesystem ← Sys.once (.fstatfs file.fd)
  Fallible.require (sameFile opened named) .einval
  Fallible.require (supportedFilesystem filesystem) .enotsup
  fileSync fuel file
  Sys.retry (.fsync directory) fuel
  let again ← Sys.once (.fstatat directory name)
  Fallible.require (sameFile opened again) .einval

def closeDirectory (directory : Int) (result : Except Errno Unit) : Sys Unit :=
  .ask (.close directory) fun reply =>
    match result, reply with
    | .error code, _ => Fallible.fail code
    | .ok (), .error error => Fallible.fail (errno error)
    | .ok (), .ok () => (pure () : Sys Unit)

def fileProvision (fuel : Nat) (file : TimeliteFile) (path : Bytes) : Sys Unit := do
  checkFile file
  Fallible.require ((splitPath path).1.length < 4096 ∧ (splitPath path).2 ≠ []) enametoolong
  let directory ← Sys.once (.openDirectory (splitPath path).1)
  Fallible.examine (provisionIn fuel file directory (splitPath path).2) (closeDirectory directory)

end Provision

section Implementing

abbrev Handles : Type := File → TimeliteFile

def Handles.closed : Handles := fun _ => .closed

structure Config where
  path : File → Bytes
  ssizeMax : Nat
  fuel : Nat

def releasing (handles : Handles) (file : File) : Prog SysReply (Option (Except Errno Unit × Handles)) :=
  (fileClose (handles file)).bind (chain fun result => .done (some (result.1, Function.update handles file result.2)))

/-- The functions of file_io.h. -/
def implement (config : Config) : (call : Call) → Handles → Prog SysReply (Option (Reply call × Handles))
  | .open file, handles => acquiring handles (Function.update handles file) (fileOpen config.fuel (handles file) (config.path file))
  | .create file, handles => acquiring handles (Function.update handles file) (fileCreate config.fuel (handles file) (config.path file))
  | .lock file, handles => keeping handles (fileLock (handles file))
  | .identity, handles => keeping handles (fileIdentity config.fuel)
  | .read file offset length, handles => keeping handles (fileRead config.fuel config.ssizeMax (handles file) offset length)
  | .write file offset bytes, handles => keeping handles (fileWrite config.fuel config.ssizeMax (handles file) offset bytes)
  | .size file, handles => keeping handles (fileSize config.fuel (handles file))
  | .truncate file size, handles => keeping handles (fileTruncate config.fuel (handles file) size)
  | .sync file, handles => keeping handles (fileSync config.fuel (handles file))
  | .provision file, handles => keeping handles (fileProvision config.fuel (handles file) (config.path file))
  | .close file, handles => releasing handles file

end Implementing

end Timelite.Syscalls
