import Timelite.Syscalls

/-!
file_io_windows.c over the Win32 calls. No call is repeated; pointer arguments are
Lean values, and a path is given to each file.
-/
namespace Timelite.Win32
open ByteFile Program Lowering Backend
open Syscalls (reported transferred enametoolong)
open Transfers (WindowsError WindowsCall WindowsReply windowsError windowsRead windowsWrite int64Max)

/-- UTF-16 units. -/
abbrev Wide : Type := List UInt16

/-- `createNew` is CREATE_NEW in place of OPEN_EXISTING. -/
inductive WinCall where
  | multiByteToWideChar (path : Bytes)
  | createFileW (path : Wide) (createNew : Bool)
  | getFileType (handle : Nat)
  | getFileInformationByHandle (handle : Nat)
  | lockFileEx (handle : Nat)
  | transfer (handle : Nat) (call : WindowsCall)
  | getFileSizeEx (handle : Nat)
  | setEndOfFile (handle : Nat)
  | flushFileBuffers (handle : Nat)
  | closeHandle (handle : Nat)
  deriving DecidableEq, Repr

/-- GetFileType tells whether it is FILE_TYPE_DISK, GetFileInformationByHandle whether
it has FILE_ATTRIBUTE_DIRECTORY. -/
abbrev WinCall.Answer : WinCall → Type
  | .multiByteToWideChar _ => Wide
  | .createFileW _ _ => Nat
  | .getFileType _ | .getFileInformationByHandle _ => Bool
  | .transfer _ call => call.Answer
  | .getFileSizeEx _ => Int
  | _ => Unit

abbrev WinReply (call : WinCall) : Type := Except WindowsError call.Answer

-- `windows_error(GetLastError())`.
def lastError (error : WindowsError) : Errno := reported (windowsError error)

/-- A function over the Win32 calls. -/
abbrev Win (α : Type) : Type := Fallible WinReply Errno α

def Win.once (call : WinCall) : Win call.Answer :=
  .ask call fun
    | .ok answer => .done (some (.ok answer))
    | .error error => Fallible.fail (lastError error)

/-- `null` is NULL and `invalid` INVALID_HANDLE_VALUE. -/
inductive Handle where
  | null
  | invalid
  | object (number : Nat)
  deriving DecidableEq, Repr

/-- `struct timelite_file`; NULL is closed. -/
structure WinFile where
  handle : Handle
  deriving DecidableEq, Repr

def WinFile.closed : WinFile := ⟨.null⟩

def checkFile (file : WinFile) : Win Nat :=
  match file.handle with
  | .object handle => pure handle
  | .null | .invalid => Fallible.fail .ebadf

/-- `(void)CloseHandle(handle)`, and the error from before. -/
def abandon {α : Type} (handle : Nat) (code : Errno) : Win α := .ask (.closeHandle handle) fun _ => Fallible.fail code

def maxPath : Nat := 260

-- What open_file asks of the new handle.
def checkObject (handle : Nat) : Win Unit := do
  let disk ← Win.once (.getFileType handle)
  Fallible.require (disk = true) .einval
  let directory ← Win.once (.getFileInformationByHandle handle)
  Fallible.require (directory = false) .einval

def openFile (file : WinFile) (path : Bytes) (createNew : Bool) : Win WinFile := do
  Fallible.require (path ≠ []) .einval
  Fallible.require (file.handle = .null) .einval
  Fallible.require (path.length < maxPath) enametoolong
  let widePath ← Win.once (.multiByteToWideChar path)
  let handle ← Win.once (.createFileW widePath createNew)
  Fallible.examine (checkObject handle) fun
    | .ok () => pure ⟨.object handle⟩
    | .error code => abandon handle code

def fileOpen (file : WinFile) (path : Bytes) : Win WinFile := openFile file path false

def fileCreate (file : WinFile) (path : Bytes) : Win WinFile := openFile file path true

def fileLock (file : WinFile) : Win Unit := do
  let handle ← checkFile file
  .ask (.lockFileEx handle) fun
    | .ok () => (pure () : Win Unit)
    | .error .lockViolation => Fallible.fail .ebusy
    | .error error => Fallible.fail (lastError error)

/-- The native transfers of one open file. -/
def onHandle {α : Type} (handle : Nat) : Prog WindowsReply α → Prog WinReply α := embed (.transfer handle) fun _ reply => reply

/-- What check_transfer asks of the handle, and its number. -/
def Handle.opened : Handle → Bool
  | .object _ => true
  | .null | .invalid => false

def Handle.number : Handle → Nat
  | .object number => number
  | .null | .invalid => 0

def seekFile (handle offset : Nat) : Win Unit := Win.once (.transfer handle (.setFilePointerEx offset))

-- A turn of a loop moves at least one byte, so there are no more than bytes.
def fileRead (limit : Nat) (file : WinFile) (offset length : Nat) : Win Bytes :=
  (onHandle file.handle.number (windowsRead file.handle.opened limit offset length length)).bind (chain transferred)

def fileWrite (limit : Nat) (file : WinFile) (offset : Nat) (buffer : Bytes) : Win Nat :=
  (onHandle file.handle.number (windowsWrite file.handle.opened limit offset buffer buffer.length)).bind (chain transferred)

def fileSize (file : WinFile) : Win Nat := do
  let handle ← checkFile file
  let result ← Win.once (.getFileSizeEx handle)
  Fallible.require (0 ≤ result) .eoverflow
  pure result.toNat

-- A write beyond EOF zeroes the gap; SetEndOfFile alone does not promise it.
def extendFile (limit : Nat) (file : WinFile) (size : Nat) : Win Unit := do
  let _ ← fileWrite limit file (size - 1) [0]
  pure ()

def cutFile (handle size : Nat) : Win Unit := do
  seekFile handle size
  Win.once (.setEndOfFile handle)

def fileTruncate (limit : Nat) (file : WinFile) (size : Nat) : Win Unit := do
  let handle ← checkFile file
  Fallible.require (size ≤ int64Max) .eoverflow
  let oldSize ← fileSize file
  if oldSize < size then extendFile limit file size else cutFile handle size

def fileSync (file : WinFile) : Win Unit := do
  let handle ← checkFile file
  Win.once (.flushFileBuffers handle)

/-- The handle is consumed whatever the call says. -/
def fileClose (file : WinFile) : Prog WinReply (Option (Except Errno Unit × WinFile)) :=
  match file.handle with
  | .object handle => .ask (.closeHandle handle) fun
      | .ok () => .done (some (.ok (), .closed))
      | .error error => .done (some (.error (lastError error), .closed))
  | .null | .invalid => .done (some (.error .ebadf, file))

-- File flush alone supplies no supported namespace provisioning contract.
def fileIdentity : Win Bytes := Fallible.fail .enotsup

def fileProvision (_file : WinFile) (_path : Bytes) : Win Unit := Fallible.fail .enotsup

section Implementing

abbrev WinHandles : Type := File → WinFile

def WinHandles.closed : WinHandles := fun _ => .closed

structure Config where
  path : File → Bytes
  limit : Nat

def releasing (handles : WinHandles) (file : File) : Prog WinReply (Option (Except Errno Unit × WinHandles)) :=
  (fileClose (handles file)).bind (chain fun result => .done (some (result.1, Function.update handles file result.2)))

/-- The functions of file_io.h. -/
def implement (config : Config) : (call : Call) → WinHandles → Prog WinReply (Option (Reply call × WinHandles))
  | .open file, handles => acquiring handles (Function.update handles file) (fileOpen (handles file) (config.path file))
  | .create file, handles => acquiring handles (Function.update handles file) (fileCreate (handles file) (config.path file))
  | .lock file, handles => keeping handles (fileLock (handles file))
  | .identity, handles => keeping handles fileIdentity
  | .read file offset length, handles => keeping handles (fileRead config.limit (handles file) offset length)
  | .write file offset bytes, handles => keeping handles (fileWrite config.limit (handles file) offset bytes)
  | .size file, handles => keeping handles (fileSize (handles file))
  | .truncate file size, handles => keeping handles (fileTruncate config.limit (handles file) size)
  | .sync file, handles => keeping handles (fileSync (handles file))
  | .provision file, handles => keeping handles (fileProvision (handles file) (config.path file))
  | .close file, handles => releasing handles file

end Implementing

end Timelite.Win32
