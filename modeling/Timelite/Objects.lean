import Timelite.Win32
import Timelite.Native

/-!
What the Win32 calls do: the handles of one process with their file pointers, and the
two files in the system's cache. A partial write tears a manifest slot as on Linux.
-/
namespace Timelite.Objects
open ByteFile Program Durable Backend BackendLaws Lowering Win32 Native
open Transfers (WindowsError WindowsCall windowsError)

/-- The handles are the descriptors of the kernel. -/
structure Space extends Kernel where
  pointer : Int → Nat

/-- How paths are converted, and which of the files a path names. -/
structure Volume where
  widen : Bytes → Wide
  named : Wide → Option File

/-- A process without handles. -/
def fresh (store : Store) : Space := ⟨idle store, fun _ => 0⟩

def Space.point (space : Space) (handle : Int) (position : Nat) : Space :=
  { space with pointer := Function.update space.pointer handle position }

/-- A handle is opened, at the start of its file, or closed. -/
def Space.object (space : Space) (handle : Int) (descriptor : Option Descriptor) : Space :=
  Space.point ⟨space.toKernel.descriptor handle descriptor, space.pointer⟩ handle 0

def Space.change (space : Space) (store : Store) : Space := { space with store }

/-- A failure that leaves everything as it was. -/
def Harmless : WinCall → Prop
  | .createFileW _ _ | .transfer _ _ | .closeHandle _ => False
  | _ => True

/-- Calls that only look, and the lock, which the model of the files does not show. -/
def Looks : WinCall → Prop
  | .getFileType _ | .getFileInformationByHandle _ | .lockFileEx _ => True
  | _ => False

/-- Neither that the file is missing nor that it exists. -/
def Known (error : WindowsError) : Prop := windowsError error ≠ .enoent ∧ windowsError error ≠ .eexist

/-- What a Win32 call answers and does. Any call may fail with any error but those that mean
ENOENT and EEXIST: CreateFileW alone tells these, and only where they are true. A transfer
may stop anywhere, save that a manifest slot written in part never has a valid checksum. -/
inductive Step (volume : Volume) : Space → Event WinReply → Space → Prop where
  | widened {space : Space} {path : Bytes} : Step volume space ⟨.multiByteToWideChar path, .ok (volume.widen path)⟩ space
  | opened {space : Space} {file : File} {path : Wide} {handle : Nat} (named : volume.named path = some file)
      (present : (space.store.disk? file).isSome = true) (fresh : space.table handle = none) :
      Step volume space ⟨.createFileW path false, .ok handle⟩ (space.object handle (some (.file file)))
  | created {space : Space} {file : File} {path : Wide} {handle : Nat} (named : volume.named path = some file)
      (absent : space.store.disk? file = none) (fresh : space.table handle = none) :
      Step volume space ⟨.createFileW path true, .ok handle⟩
        ((space.change (space.store.put file (settled []))).object handle (some (.file file)))
  | unopened {space : Space} {path : Wide} {createNew : Bool} {error : WindowsError}
      (missing : windowsError error = .enoent → createNew = false ∧ ∀ file, volume.named path = some file → space.store.disk? file = none)
      (existing : windowsError error = .eexist →
        createNew = true ∧ ∀ file, volume.named path = some file → (space.store.disk? file).isSome = true) :
      Step volume space ⟨.createFileW path createNew, .error error⟩ space
  | looked {space : Space} {call : WinCall} {answer : call.Answer} (looks : Looks call) : Step volume space ⟨call, .ok answer⟩ space
  | sized {space : Space} {handle : Nat} {file : File} {size : Int} (held : space.table handle = some (.file file))
      (true_ : 0 ≤ size → size = (space.store.content file).length) : Step volume space ⟨.getFileSizeEx handle, .ok size⟩ space
  | sought {space : Space} {handle offset : Nat} :
      Step volume space ⟨.transfer handle (.setFilePointerEx offset), .ok ()⟩ (space.point handle offset)
  | read {space : Space} {handle count most : Nat} {file : File} (held : space.table handle = some (.file file)) (asked : most ≤ count)
      (ended : (readAt (space.store.content file) (space.pointer handle) most).length = 0 →
        (space.store.content file).length ≤ space.pointer handle) :
      Step volume space ⟨.transfer handle (.readFile count), .ok (readAt (space.store.content file) (space.pointer handle) most)⟩
        (space.point handle (space.pointer handle + (readAt (space.store.content file) (space.pointer handle) most).length))
  | wrote {space : Space} {handle count : Nat} {bytes : Bytes} {file : File} (held : space.table handle = some (.file file))
      (asked : count ≤ bytes.length) (cut : (nativeTearing file).allows (space.store.content file) (space.pointer handle) bytes count) :
      Step volume space ⟨.transfer handle (.writeFile bytes), .ok count⟩
        ((space.change (space.store.update file (.write (space.pointer handle) (bytes.take count)))).point handle
          (space.pointer handle + count))
  -- The position is anywhere after a failure. ERROR_HANDLE_EOF is only told at the end.
  | missed {space : Space} {handle position : Nat} {call : WindowsCall} {error : WindowsError} (known : Known error)
      (ended : error = .handleEof → ∀ file, space.table handle = some (.file file) →
        (space.store.content file).length ≤ space.pointer handle) :
      Step volume space ⟨.transfer handle call, .error error⟩ (space.point handle position)
  | cut {space : Space} {handle : Nat} {file : File} {reply : WinReply (.setEndOfFile handle)} (held : space.table handle = some (.file file))
      (known : ∀ error, reply = .error error → Known error) :
      Step volume space ⟨.setEndOfFile handle, reply⟩ (space.change (space.store.update file (.truncate (space.pointer handle))))
  | flushed {space : Space} {handle : Nat} {file : File} {reply : WinReply (.flushFileBuffers handle)}
      (held : space.table handle = some (.file file)) (known : ∀ error, reply = .error error → Known error) :
      Step volume space ⟨.flushFileBuffers handle, reply⟩ (space.change (space.store.sync file))
  | closed {space : Space} {handle : Nat} {reply : WinReply (.closeHandle handle)} (known : ∀ error, reply = .error error → Known error) :
      Step volume space ⟨.closeHandle handle, reply⟩ (space.object handle none)
  | failed {space : Space} {call : WinCall} {error : WindowsError} (harmless : Harmless call) (known : Known error) :
      Step volume space ⟨call, .error error⟩ space

section Working
variable {volume : Volume} {space : Space}

/-- The lowest free handle of a process that may have few of them. -/
def Space.lowest (space : Space) : Option Nat := [4, 8, 12].find? fun handle => (space.table handle).isNone

def Space.openAs (space : Space) (store : Store) (file : File) : Except WindowsError Nat × Space :=
  match space.lowest with
  | none => (.error .tooManyOpenFiles, space)
  | some handle => (.ok handle, (space.change store).object handle (some (.file file)))

def onFile {α : Type} (space : Space) (handle : Nat) (act : File → Except WindowsError α × Space) : Except WindowsError α × Space :=
  match space.table handle with
  | some (.file file) => act file
  | _ => (.error .invalidHandle, space)

/-- A system in which nothing fails and every transfer is whole. -/
def work (volume : Volume) : (call : WinCall) → Space → WinReply call × Space
  | .multiByteToWideChar path, space => (.ok (volume.widen path), space)
  | .createFileW path createNew, space =>
      match volume.named path with
      | none => (.error .accessDenied, space)
      | some file =>
          if (space.store.disk? file).isSome then if createNew then (.error .fileExists, space) else space.openAs space.store file
          else if createNew then space.openAs (space.store.put file (settled [])) file else (.error .fileNotFound, space)
  | .getFileType _, space => (.ok true, space)
  | .getFileInformationByHandle _, space => (.ok false, space)
  | .lockFileEx _, space => (.ok (), space)
  | .transfer handle (.setFilePointerEx offset), space => (.ok (), space.point handle offset)
  | .transfer handle (.readFile count), space => onFile space handle fun file =>
      if count = 0 then (.error .invalidParameter, space)
      else (.ok (readAt (space.store.content file) (space.pointer handle) count), space.point handle
        (space.pointer handle + (readAt (space.store.content file) (space.pointer handle) count).length))
  | .transfer handle (.writeFile bytes), space => onFile space handle fun file =>
      (.ok bytes.length, (space.change (space.store.update file (.write (space.pointer handle) (bytes.take bytes.length)))).point handle
        (space.pointer handle + bytes.length))
  | .getFileSizeEx handle, space => onFile space handle fun file => (.ok (space.store.content file).length, space)
  | .setEndOfFile handle, space =>
      onFile space handle fun file => (.ok (), space.change (space.store.update file (.truncate (space.pointer handle))))
  | .flushFileBuffers handle, space => onFile space handle fun file => (.ok (), space.change (space.store.sync file))
  | .closeHandle handle, space => (.ok (), space.object handle none)

theorem lowest_free {handle : Nat} (found : space.lowest = some handle) : space.table handle = none := by
  simpa using List.find?_some found

theorem point_same (space : Space) (handle : Int) : space.point handle (space.pointer handle) = space := by
  rw [Space.point, Function.update_eq_self]

theorem open_as {store : Store} {file : File} {path : Wide} {createNew : Bool}
    (opened : ∀ handle : Nat, space.table handle = none →
      Step volume space ⟨.createFileW path createNew, .ok handle⟩ ((space.change store).object handle (some (.file file)))) :
    Step volume space ⟨.createFileW path createNew, (space.openAs store file).1⟩ (space.openAs store file).2 := by
  unfold Space.openAs
  cases found : space.lowest with
  | none => exact .unopened nofun nofun
  | some handle => exact opened handle (lowest_free found)

-- A call on a handle that is not of a file fails.
theorem on_file {call : WinCall} {handle : Nat} {act : File → WinReply call × Space}
    (held : ∀ file, space.table handle = some (.file file) → Step volume space ⟨call, (act file).1⟩ (act file).2)
    (bad : Step volume space ⟨call, .error .invalidHandle⟩ space) :
    Step volume space ⟨call, (onFile space handle act).1⟩ (onFile space handle act).2 := by
  unfold onFile
  split
  · rename_i file found
    exact held file found
  · exact bad

theorem invalid_handle {call : WinCall} (harmless : Harmless call) : Step volume space ⟨call, .error .invalidHandle⟩ space :=
  .failed harmless ⟨nofun, nofun⟩

theorem transfer_fails {handle : Nat} {call : WindowsCall} {error : WindowsError} (known : Known error) (other : error ≠ .handleEof) :
    Step volume space ⟨.transfer handle call, .error error⟩ space := by
  have missed : Step volume space ⟨.transfer handle call, .error error⟩ (space.point handle (space.pointer handle)) :=
    .missed known fun same => absurd same other
  rwa [point_same] at missed

/-- It does what a system may do. -/
theorem work_steps (call : WinCall) (space : Space) : Step volume space ⟨call, (work volume call space).1⟩ (work volume call space).2 := by
  cases call with
  | multiByteToWideChar path => exact .widened
  | createFileW path createNew =>
      generalize told : work volume (.createFileW path createNew) space = outcome
      unfold work at told
      simp only at told
      split at told
      · subst told
        exact .unopened nofun nofun
      rename_i file named
      have only : ∀ other, volume.named path = some other → other = file := fun other named' =>
        (Option.some.inj (named.symm.trans named')).symm
      split at told
      · rename_i present
        split at told
        · rename_i new
          subst told new
          refine .unopened nofun fun _ => ⟨rfl, fun other named' => ?_⟩
          rw [only other named']
          exact present
        · rename_i shared
          rw [Bool.not_eq_true] at shared
          subst told shared
          exact open_as fun handle unused => .opened named present unused
      · rename_i absent
        rw [Option.not_isSome_iff_eq_none] at absent
        split at told
        · rename_i new
          subst told new
          exact open_as fun handle unused => .created named absent unused
        · rename_i shared
          rw [Bool.not_eq_true] at shared
          subst told shared
          refine .unopened (fun _ => ⟨rfl, fun other named' => ?_⟩) nofun
          rw [only other named']
          exact absent
  | getFileType handle => exact .looked trivial
  | getFileInformationByHandle handle => exact .looked trivial
  | lockFileEx handle => exact .looked trivial
  | transfer handle call =>
      cases call with
      | setFilePointerEx offset => exact .sought
      | readFile count =>
          refine on_file (fun file held => ?_) (transfer_fails ⟨nofun, nofun⟩ nofun)
          split
          · exact transfer_fails ⟨nofun, nofun⟩ nofun
          · refine .read held (Nat.le_refl _) fun none => ?_
            rw [read_length] at none
            omega
      | writeFile bytes =>
          refine on_file (fun file held => .wrote held (Nat.le_refl _) ?_) (transfer_fails ⟨nofun, nofun⟩ nofun)
          cases file with
          | wal => trivial
          | database => exact fun slot _ => .inr (.inl (by rw [List.take_length]))
  | getFileSizeEx handle => exact on_file (fun file held => .sized held fun _ => rfl) (invalid_handle trivial)
  | setEndOfFile handle => exact on_file (fun file held => .cut held nofun) (invalid_handle trivial)
  | flushFileBuffers handle => exact on_file (fun file held => .flushed held nofun) (invalid_handle trivial)
  | closeHandle handle => exact .closed nofun

end Working

end Timelite.Objects
