import Timelite.Syscalls

/-!
What the system calls do: the descriptors of one process, and the two files in the
kernel's cache. A partial write of a manifest slot leaves it as it was, whole, or
with a wrong checksum, wherever the writes of it begin.
-/
namespace Timelite.Native
open ByteFile Program Durable Codec Backend BackendLaws Lowering Syscalls
open Transfers (PosixError WrittenTo written_start written_more capped capped_le)

inductive Descriptor where
  | file (file : File)
  | directory
  deriving DecidableEq, Repr

structure Kernel where
  store : Store
  table : Int → Option Descriptor

/-- A process without open descriptors. -/
def idle (store : Store) : Kernel := ⟨store, fun _ => none⟩

section Tearing

def slotsTear (file : Bytes) (offset : Nat) (bytes : Bytes) (count : Nat) : Prop :=
  ∀ slot, slot = 32 ∨ slot = 96 →
    let torn := slotBytes (writeAt file offset (bytes.take count)) slot
    torn = slotBytes file slot ∨ torn = slotBytes (writeAt file offset bytes) slot ∨
      checksum (torn.take 60) ≠ decode32 (torn.drop 60)

theorem slots_tear_nested {file : Bytes} {offset : Nat} {bytes : Bytes} {first second : Nat}
    (outer : slotsTear file offset bytes first) (inner : slotsTear file offset (bytes.take first) second) :
    slotsTear file offset bytes (min second first) := by
  intro slot known
  have cut := inner slot known
  simp only [List.take_take] at cut ⊢
  rcases cut with old | whole | bad
  · exact .inl old
  · have rest := outer slot known
    rw [whole]
    exact rest
  · exact .inr (.inr bad)

def nativeTearing : File → Tearing
  | .database => ⟨slotsTear, slots_tear_nested⟩
  | .wal => anywhere

end Tearing

/-- A failure that leaves everything as it was. -/
def Harmless : SysCall → Prop
  | .open _ _ | .close _ => False
  | _ => True

/-- Calls that only look, and the two that the model of the files does not show. -/
def Looks : SysCall → Prop
  | .fstatat _ _ | .fstatfs _ | .flock _ | .fsync _ => True
  | _ => False

def Kernel.descriptor (kernel : Kernel) (fd : Int) (descriptor : Option Descriptor) : Kernel :=
  { kernel with table := Function.update kernel.table fd descriptor }

/-- What a system call answers and does. Any call may fail with any error but two: ENOENT
and EEXIST are told by the open of a database file, and only where they are true, since the
paths and their parent directory stay; a transfer may stop anywhere, save that a manifest
slot written in part never has a valid checksum. -/
inductive Step (path : File → Bytes) : Kernel → Event SysReply → Kernel → Prop where
  | opened {kernel : Kernel} {file : File} {name : Bytes} {fd : Int} (named : path file = name)
      (present : (kernel.store.disk? file).isSome = true) (fresh : kernel.table fd = none) (valid : 0 ≤ fd) :
      Step path kernel ⟨.open name false, .ok fd⟩ (kernel.descriptor fd (some (.file file)))
  | created {kernel : Kernel} {file : File} {name : Bytes} {fd : Int} (named : path file = name)
      (absent : kernel.store.disk? file = none) (fresh : kernel.table fd = none) (valid : 0 ≤ fd) :
      Step path kernel ⟨.open name true, .ok fd⟩
        (Kernel.descriptor ⟨kernel.store.put file (settled []), kernel.table⟩ fd (some (.file file)))
  | unopened {kernel : Kernel} {name : Bytes} {exclusive : Bool} {error : PosixError}
      (missing : error = .errno .enoent → exclusive = false ∧ ∀ file, path file = name → kernel.store.disk? file = none)
      (existing : error = .errno .eexist → exclusive = true ∧ ∀ file, path file = name → (kernel.store.disk? file).isSome = true) :
      Step path kernel ⟨.open name exclusive, .error error⟩ kernel
  | openedDirectory {kernel : Kernel} {parent : Bytes} {fd : Int} (fresh : kernel.table fd = none) (valid : 0 ≤ fd) :
      Step path kernel ⟨.openDirectory parent, .ok fd⟩ (kernel.descriptor fd (some .directory))
  | stat {kernel : Kernel} {fd : Int} {file : File} {info : Stat} (held : kernel.table fd = some (.file file))
      (sized : 0 ≤ info.size → info.size = (kernel.store.content file).length) : Step path kernel ⟨.fstat fd, .ok info⟩ kernel
  | looked {kernel : Kernel} {call : SysCall} {answer : call.Answer} (looks : Looks call) : Step path kernel ⟨call, .ok answer⟩ kernel
  | read {kernel : Kernel} {fd : Int} {file : File} {count offset most : Nat} (held : kernel.table fd = some (.file file))
      (asked : most ≤ count) (ended : (readAt (kernel.store.content file) offset most).length = 0 →
        (kernel.store.content file).length ≤ offset) :
      Step path kernel ⟨.transfer fd (.pread count offset), .ok (readAt (kernel.store.content file) offset most)⟩ kernel
  | wrote {kernel : Kernel} {fd : Int} {file : File} {bytes : Bytes} {offset count : Nat} (held : kernel.table fd = some (.file file))
      (asked : count ≤ bytes.length) (cut : (nativeTearing file).allows (kernel.store.content file) offset bytes count) :
      Step path kernel ⟨.transfer fd (.pwrite bytes offset), .ok count⟩
        ⟨kernel.store.update file (.write offset (bytes.take count)), kernel.table⟩
  | truncated {kernel : Kernel} {fd : Int} {file : File} {size : Nat} {reply : SysReply (.ftruncate fd size)}
      (held : kernel.table fd = some (.file file)) (known : reply ≠ .error (.errno .enoent) ∧ reply ≠ .error (.errno .eexist)) :
      Step path kernel ⟨.ftruncate fd size, reply⟩ ⟨kernel.store.update file (.truncate size), kernel.table⟩
  | synced {kernel : Kernel} {fd : Int} {file : File} {reply : SysReply (.fdatasync fd)} (held : kernel.table fd = some (.file file))
      (known : reply ≠ .error (.errno .enoent) ∧ reply ≠ .error (.errno .eexist)) :
      Step path kernel ⟨.fdatasync fd, reply⟩ ⟨kernel.store.sync file, kernel.table⟩
  | random {kernel : Kernel} {count : Nat} {bytes : Bytes} (whole : bytes.length = 16 → bytes = kernel.store.entropy) :
      Step path kernel ⟨.getrandom count, .ok bytes⟩ kernel
  | closed {kernel : Kernel} {fd : Int} {reply : SysReply (.close fd)}
      (known : reply ≠ .error (.errno .enoent) ∧ reply ≠ .error (.errno .eexist)) :
      Step path kernel ⟨.close fd, reply⟩ (kernel.descriptor fd none)
  | failed {kernel : Kernel} {call : SysCall} {error : PosixError} (harmless : Harmless call)
      (known : error ≠ .errno .enoent ∧ error ≠ .errno .eexist) : Step path kernel ⟨call, .error error⟩ kernel

theorem path_unique {path : File → Bytes} (apart : path .database ≠ path .wal) {file other : File} (same : path other = path file) :
    other = file := by
  cases other <;> cases file <;> first | rfl | exact absurd same apart | exact absurd same.symm apart

section Working

/-- The lowest free descriptor of a process that may have few of them. -/
def Kernel.lowest (kernel : Kernel) : Option Int := [3, 4, 5, 6].find? fun fd => (kernel.table fd).isNone

def Kernel.openAs (kernel : Kernel) (store : Store) (descriptor : Descriptor) : Except PosixError Int × Kernel :=
  match kernel.lowest with
  | none => (.error (.errno .emfile), kernel)
  | some fd => (.ok fd, Kernel.descriptor ⟨store, kernel.table⟩ fd (some descriptor))

def named (path : File → Bytes) (name : Bytes) : Option File :=
  if path .database = name then some .database else if path .wal = name then some .wal else none

def inode : File → Nat
  | .database => 1
  | .wal => 2

/-- A kernel in which nothing fails and every transfer is whole. -/
def work (path : File → Bytes) : (call : SysCall) → Kernel → SysReply call × Kernel
  | .open name exclusive, kernel =>
      match named path name with
      | none => (.error (.errno .eacces), kernel)
      | some file =>
          if (kernel.store.disk? file).isSome then
            if exclusive then (.error (.errno .eexist), kernel) else kernel.openAs kernel.store (.file file)
          else if exclusive then kernel.openAs (kernel.store.put file (settled [])) (.file file) else (.error (.errno .enoent), kernel)
  | .openDirectory _, kernel => kernel.openAs kernel.store .directory
  | .fstat fd, kernel =>
      match kernel.table fd with
      | some (.file file) => (.ok ⟨true, (kernel.store.content file).length, 1, inode file⟩, kernel)
      | _ => (.error (.errno .ebadf), kernel)
  | .fstatat _ name, kernel => (.ok ⟨true, 0, 1, if (splitPath (path .database)).2 = name then inode .database else inode .wal⟩, kernel)
  | .fstatfs _, kernel => (.ok 0xef53, kernel)
  | .flock _, kernel => (.ok (), kernel)
  | .transfer fd (.pread count offset), kernel =>
      match kernel.table fd with
      | some (.file file) =>
          if count = 0 then (.error (.errno .einval), kernel) else (.ok (readAt (kernel.store.content file) offset count), kernel)
      | _ => (.error (.errno .ebadf), kernel)
  | .transfer fd (.pwrite bytes offset), kernel =>
      match kernel.table fd with
      | some (.file file) => (.ok bytes.length, ⟨kernel.store.update file (.write offset (bytes.take bytes.length)), kernel.table⟩)
      | _ => (.error (.errno .ebadf), kernel)
  | .ftruncate fd size, kernel =>
      match kernel.table fd with
      | some (.file file) => (.ok (), ⟨kernel.store.update file (.truncate size), kernel.table⟩)
      | _ => (.error (.errno .ebadf), kernel)
  | .fdatasync fd, kernel =>
      match kernel.table fd with
      | some (.file file) => (.ok (), ⟨kernel.store.sync file, kernel.table⟩)
      | _ => (.error (.errno .ebadf), kernel)
  | .fsync _, kernel => (.ok (), kernel)
  | .getrandom _, kernel => (.ok kernel.store.entropy, kernel)
  | .close fd, kernel => (.ok (), kernel.descriptor fd none)

theorem lowest_free {kernel : Kernel} {fd : Int} (found : kernel.lowest = some fd) : kernel.table fd = none ∧ 0 ≤ fd := by
  refine ⟨by simpa using List.find?_some found, ?_⟩
  have member := List.mem_of_find?_eq_some found
  simp only [List.mem_cons, List.not_mem_nil, or_false] at member
  omega

theorem named_path {path : File → Bytes} {name : Bytes} {file : File} (found : named path name = some file) : path file = name := by
  unfold named at found
  split at found
  · rename_i same
    cases found
    exact same
  split at found
  · rename_i same
    cases found
    exact same
  · cases found

theorem open_as {path : File → Bytes} {kernel : Kernel} {store : Store} {descriptor : Descriptor} {call : SysCall}
    {reply : Except PosixError Int → SysReply call}
    (opened : ∀ fd, kernel.table fd = none → 0 ≤ fd →
      Step path kernel ⟨call, reply (.ok fd)⟩ (Kernel.descriptor ⟨store, kernel.table⟩ fd (some descriptor)))
    (failed : Step path kernel ⟨call, reply (.error (.errno .emfile))⟩ kernel) :
    Step path kernel ⟨call, reply (kernel.openAs store descriptor).1⟩ (kernel.openAs store descriptor).2 := by
  unfold Kernel.openAs
  cases found : kernel.lowest with
  | none => exact failed
  | some fd => exact opened fd (lowest_free found).1 (lowest_free found).2

/-- A call on a descriptor that is not of a file fails. -/
theorem bad_descriptor {path : File → Bytes} {kernel : Kernel} {call : SysCall} (harmless : Harmless call) :
    Step path kernel ⟨call, .error (.errno .ebadf)⟩ kernel := .failed harmless ⟨nofun, nofun⟩

/-- It does what a kernel may do. -/
theorem work_steps {path : File → Bytes} (apart : path .database ≠ path .wal) (call : SysCall) (kernel : Kernel) :
    Step path kernel ⟨call, (work path call kernel).1⟩ (work path call kernel).2 := by
  generalize told : work path call kernel = outcome
  unfold work at told
  cases call with
  | «open» name exclusive =>
      simp only at told
      split at told
      · subst told
        exact .unopened nofun nofun
      rename_i file found
      have same := named_path found
      split at told
      · rename_i present
        split at told
        · rename_i only
          subst told only
          refine .unopened nofun fun _ => ⟨rfl, fun other named => ?_⟩
          rw [path_unique apart (named.trans same.symm)]
          exact present
        · rename_i shared
          rw [Bool.not_eq_true] at shared
          subst told shared
          exact @open_as _ _ _ _ (.open name false) id (fun fd fresh valid => .opened same present fresh valid) (.unopened nofun nofun)
      · rename_i absent
        rw [Option.not_isSome_iff_eq_none] at absent
        split at told
        · rename_i only
          subst told only
          exact @open_as _ _ _ _ (.open name true) id (fun fd fresh valid => .created same absent fresh valid) (.unopened nofun nofun)
        · rename_i shared
          rw [Bool.not_eq_true] at shared
          subst told shared
          refine .unopened (fun _ => ⟨rfl, fun other named => ?_⟩) nofun
          rw [path_unique apart (named.trans same.symm)]
          exact absent
  | openDirectory parent =>
      subst told
      exact @open_as _ _ _ _ (.openDirectory parent) id (fun fd fresh valid => .openedDirectory fresh valid) (.failed trivial ⟨nofun, nofun⟩)
  | fstat fd =>
      simp only at told
      split at told
      · rename_i file held
        subst told
        exact .stat held fun _ => rfl
      · subst told
        exact bad_descriptor trivial
  | fstatat directory name =>
      subst told
      exact .looked trivial
  | fstatfs fd =>
      subst told
      exact .looked trivial
  | flock fd =>
      subst told
      exact .looked trivial
  | transfer fd call =>
      cases call with
      | pread count offset =>
          simp only at told
          split at told
          · rename_i file held
            split at told
            · subst told
              exact .failed trivial ⟨nofun, nofun⟩
            · subst told
              refine .read held (Nat.le_refl _) fun none => ?_
              rw [read_length] at none
              omega
          · subst told
            exact bad_descriptor trivial
      | pwrite bytes offset =>
          simp only at told
          split at told
          · rename_i file held
            subst told
            refine .wrote held (Nat.le_refl _) ?_
            cases file with
            | wal => trivial
            | database => exact fun slot _ => .inr (.inl (by rw [List.take_length]))
          · subst told
            exact bad_descriptor trivial
  | ftruncate fd size =>
      simp only at told
      split at told
      · rename_i file held
        subst told
        exact .truncated held ⟨nofun, nofun⟩
      · subst told
        exact bad_descriptor trivial
  | fdatasync fd =>
      simp only at told
      split at told
      · rename_i file held
        subst told
        exact .synced held ⟨nofun, nofun⟩
      · subst told
        exact bad_descriptor trivial
  | fsync fd =>
      subst told
      exact .looked trivial
  | getrandom count =>
      subst told
      exact .random fun _ => rfl
  | close fd =>
      subst told
      exact .closed ⟨nofun, nofun⟩

end Working

section Stores
variable {low high : Store} {file : File}

/-- The same files, of which a crash leaves no more. -/
structure Below (low high : Store) : Prop where
  present : ∀ file, (low.disk? file).isSome = (high.disk? file).isSome
  content : ∀ file, low.content file = high.content file
  survives : ∀ file image, Survives (nativeTearing file) (low.disk file) image → Survives (tearing file) (high.disk file) image
  entropy : low.entropy = high.entropy

theorem below_refl (store : Store) : Below store store := by
  refine ⟨fun _ => rfl, fun _ => rfl, fun file image survives => ?_, rfl⟩
  cases file with
  | wal => exact survives
  | database =>
      cases survives with
      | whole kept lost split => exact .whole kept lost split
      | torn kept lost offset bytes count split cut => exact .torn kept lost offset bytes count split (cut offset)

theorem disk_put_other {store : Store} {disk : Disk} {other : File} (different : other ≠ file) :
    (store.put file disk).disk? other = store.disk? other := by
  cases file <;> cases other <;> first | rfl | exact absurd rfl different

theorem put_entropy (store : Store) (file : File) (disk : Disk) : (store.put file disk).entropy = store.entropy := by
  cases file <;> rfl

theorem put_found (store : Store) (file : File) (disk : Disk) : (store.put file disk).disk? file = some disk := by
  cases file <;> rfl

/-- One file of each is replaced. -/
theorem Below.put (below : Below low high) {disk disk' : Disk} (content : disk.content = disk'.content)
    (survives : ∀ image, Survives (nativeTearing file) disk image → Survives (tearing file) disk' image) :
    Below (low.put file disk) (high.put file disk') := by
  have cases_ : ∀ other, other = file ∨ (low.put file disk).disk? other = low.disk? other ∧
      (high.put file disk').disk? other = high.disk? other := fun other => by
    by_cases same : other = file
    · exact .inl same
    · exact .inr ⟨disk_put_other same, disk_put_other same⟩
  refine ⟨fun other => ?_, fun other => ?_, fun other image => ?_, ?_⟩
  · rcases cases_ other with rfl | ⟨first, second⟩
    · rw [put_found, put_found]
      rfl
    · rw [first, second]
      exact below.present other
  · rcases cases_ other with rfl | ⟨first, second⟩
    · simpa only [Store.content, Store.disk, put_found, Option.getD_some] using content
    · have same := below.content other
      simp only [Store.content, Store.disk, first, second] at same ⊢
      exact same
  · rcases cases_ other with rfl | ⟨first, second⟩
    · simpa only [Store.disk, put_found, Option.getD_some] using survives image
    · have same := below.survives other image
      simp only [Store.disk, first, second] at same ⊢
      exact same
  · rw [put_entropy, put_entropy]
    exact below.entropy

theorem survives_more {tearing : Tearing} {disk : Disk} {image : Bytes} {change : Update} (survives : Survives tearing disk image) :
    Survives tearing (disk.update change) image := by
  cases survives with
  | whole kept lost split => exact .whole kept (lost ++ [change]) (by rw [Disk.update, split, List.append_assoc])
  | torn kept lost offset bytes count split cut =>
      exact .torn kept (lost ++ [change]) offset bytes count (by rw [Disk.update, split, List.append_assoc, List.cons_append]) cut

theorem Below.sync (below : Below low high) (file : File) : Below (low.sync file) (high.sync file) := by
  refine below.put (below.content file) fun image survives => ?_
  rw [survives_settled survives]
  have same := below.content file
  simp only [Store.content] at same
  rw [same]
  exact survives_content _

theorem put_disk {store : Store} (present : (store.disk? file).isSome = true) : store.put file (store.disk file) = store := by
  obtain ⟨disk, found⟩ := Option.isSome_iff_exists.mp present
  rw [Store.disk, found, Option.getD_some]
  cases file with
  | database => exact congrArg (fun disk => (⟨disk, store.wal, store.entropy⟩ : Store)) found.symm
  | wal => exact congrArg (fun disk => (⟨store.database, disk, store.entropy⟩ : Store)) found.symm

/-- A sync that the other does not make. -/
theorem Below.synced (below : Below low high) (present : (low.disk? file).isSome = true) : Below (low.sync file) high := by
  have same : (low.disk file).content = (high.disk file).content := below.content file
  rw [← @put_disk file high (by rw [← below.present]; exact present)]
  refine below.put same fun image survives => ?_
  rw [survives_settled survives, same]
  exact survives_content _

theorem put_put (store : Store) (file : File) (first second : Disk) : (store.put file first).put file second = store.put file second := by
  cases file <;> rfl

theorem resize_again (content : Bytes) (size : Nat) : resize (resize content size) size = resize content size := by
  have again := resize_self (resize content size)
  rwa [resize_length] at again

/-- A truncation that is made once more. -/
theorem Below.again {size : Nat} {low high : Store} (below : Below low (high.update file (.truncate size))) :
    Below (low.update file (.truncate size)) (high.update file (.truncate size)) := by
  have same : (low.disk file).content = resize (high.disk file).content size := by
    have content := below.content file
    rw [content_update_same] at content
    exact content
  have kept : high.update file (.truncate size) = (high.update file (.truncate size)).put file ((high.disk file).update (.truncate size)) :=
    (put_put _ _ _ _).symm
  rw [kept]
  have inner : (high.update file (.truncate size)).disk file = (high.disk file).update (.truncate size) := disk_update_same _ _ _
  refine below.put ?_ fun image survives => ?_
  · rw [update_content, update_content, same]
    exact resize_again _ _
  · rcases survives_update survives with old | whole | ⟨_, _, _, change, _⟩
    · rw [← inner]
      exact below.survives file image old
    · have again : image = ((high.disk file).update (.truncate size)).content := by
        rw [whole, update_content, same]
        exact resize_again _ _
      rw [again]
      exact survives_content _
    · cases change

theorem Below.truncate {size : Nat} {low high : Store} (below : Below low high) :
    Below (low.update file (.truncate size)) (high.update file (.truncate size)) := by
  have same : (low.disk file).content = (high.disk file).content := below.content file
  refine below.put (by rw [update_content, update_content, same]) fun image survives => ?_
  rcases survives_update survives with old | whole | ⟨_, _, _, change, _⟩
  · exact survives_more (below.survives file image old)
  · rw [whole, same, ← update_content]
    exact survives_content _
  · cases change

end Stores

section Chunks
variable {file : File} {content buffer : Bytes} {high disk : Disk} {offset count more limit : Nat}

theorem slot_get (content : Bytes) (offset : Nat) (bytes : Bytes) (i : Nat) :
    (slotBytes (writeAt content offset bytes) offset)[i]? =
      if i < 64 then if i < bytes.length then bytes[i]? else content[offset + i]? else none := by
  by_cases inside : i < 64
  · rw [if_pos inside, slotBytes, read_get _ _ _ _ inside]
    by_cases new : i < bytes.length
    · rw [if_pos new, write_get_inside _ _ _ _ (Nat.le_add_right _ _) (by omega), Nat.add_sub_cancel_left]
    · rw [if_neg new]
      by_cases old : offset + i < content.length
      · exact write_get_outside _ _ _ _ old (.inr (by omega))
      · have bound := write_bound content offset bytes
        rw [List.getElem?_eq_none (by omega), List.getElem?_eq_none (by omega)]
  · rw [if_neg inside, slotBytes, List.getElem?_eq_none (by rw [read_length]; omega)]

-- More bytes than a slot has.
theorem slot_full (large : 64 ≤ count) :
    slotBytes (writeAt content offset (buffer.take count)) offset = slotBytes (writeAt content offset buffer) offset := by
  apply List.ext_getElem?
  intro i
  rw [slot_get, slot_get, List.length_take, List.getElem?_take]
  split_ifs <;> first | rfl | omega

/-- A cut of a write is one of what a longer cut leaves of it. -/
theorem tear_shorter (cut : (tearing file).allows content offset buffer count) (longer : count ≤ more) :
    (tearing file).allows content offset (buffer.take more) count := by
  cases file with
  | wal => trivial
  | database =>
      intro slot
      rw [List.take_take, Nat.min_eq_left longer]
      rcases cut slot with old | whole | bad
      · exact .inl old
      · refine .inr (.inl (whole.trans (List.ext_getElem? fun i => ?_)))
        have same := congrArg (·[i]?) whole
        simp only [slot_get, List.length_take, List.getElem?_take] at same ⊢
        split_ifs at same ⊢ <;> first | rfl | omega | exact same.symm
      · exact .inr (.inr bad)

/-- So much of a write is in the cache. -/
structure Partly (file : File) (offset : Nat) (buffer : Bytes) (high disk : Disk) (count : Nat) : Prop where
  written : WrittenTo high.content offset buffer count disk.content
  cut : (tearing file).allows high.content offset buffer count
  survives : ∀ image, Survives (nativeTearing file) disk image → Survives (tearing file) high image ∨
    ∃ kept, kept ≤ count ∧ (tearing file).allows high.content offset buffer kept ∧
      image = writeAt high.content offset (buffer.take kept)

theorem partly_start (content : disk.content = high.content)
    (survives : ∀ image, Survives (nativeTearing file) disk image → Survives (tearing file) high image) :
    Partly file offset buffer high disk 0 := by
  refine ⟨content ▸ written_start, ?_, fun image kept => .inl (survives image kept)⟩
  cases file with
  | wal => trivial
  | database => exact fun _ => .inl (by rw [List.take_zero, write_nil])

/-- A slot that one more native write may leave is one that the write may. -/
theorem cut_more (written : WrittenTo content offset buffer count disk.content) (large : 64 ≤ limit)
    (cut : (tearing file).allows content offset buffer count)
    (short : more ≤ capped limit (buffer.length - count))
    (torn : (nativeTearing file).allows disk.content (offset + count)
      ((buffer.drop count).take (capped limit (buffer.length - count))) more) :
    (tearing file).allows content offset buffer (count + more) := by
  cases file with
  | wal => trivial
  | database =>
      intro slot
      have size : ((buffer.drop count).take (capped limit (buffer.length - count))).length = capped limit (buffer.length - count) := by
        rw [List.length_take, List.length_drop]
        exact Nat.min_eq_left (capped_le limit (buffer.length - count))
      have here := (@written_more limit _ _ _ _ more _ written (short.trans_eq size.symm)).2
      have whole := (@written_more limit _ _ _ _ _ _ written (Nat.le_refl _)).2
      have after := torn offset slot
      rw [List.take_length, size] at whole
      simp only [here, whole] at after
      rcases after with old | full | bad
      · rw [old, written.2]
        exact cut slot
      · refine .inr (.inl (full.trans ?_))
        by_cases all : buffer.length - count ≤ limit
        · rw [capped, if_neg (by omega), show count + (buffer.length - count) = buffer.length by have := written.1; omega, List.take_length]
        · rw [capped, if_pos (by omega)]
          exact slot_full (by omega)
      · exact .inr (.inr bad)

theorem partly_more (partly : Partly file offset buffer high disk count) (large : 64 ≤ limit)
    (asked : more ≤ ((buffer.drop count).take (capped limit (buffer.length - count))).length)
    (torn : (nativeTearing file).allows disk.content (offset + count)
      ((buffer.drop count).take (capped limit (buffer.length - count))) more) :
    Partly file offset buffer high (disk.update (.write (offset + count)
      (((buffer.drop count).take (capped limit (buffer.length - count))).take more))) (count + more) := by
  have written := written_more partly.written asked
  have short : more ≤ capped limit (buffer.length - count) := by
    rw [List.length_take] at asked
    omega
  have cut := cut_more partly.written large partly.cut short torn
  refine ⟨by rw [update_content]; exact written, cut, fun image survives => ?_⟩
  rcases survives_update survives with old | same | ⟨start, bytes, kept, change, allowed, same⟩
  · rcases partly.survives image old with held | ⟨kept, few, allowed, same⟩
    · exact .inl held
    · exact .inr ⟨kept, by omega, allowed, same⟩
  · exact .inr ⟨count + more, Nat.le_refl _, cut, same.trans written.2⟩
  · cases change
    -- The crash cuts the last native write, which may itself be a cut of the one asked for.
    have fewer : min kept more ≤ more := Nat.min_le_right _ _
    have left := @written_more limit _ _ _ _ (min kept more) _ partly.written (fewer.trans asked)
    rw [List.take_take] at same
    refine .inr ⟨count + min kept more, by omega, ?_, same.trans left.2⟩
    cases file with
    | wal => trivial
    | database =>
        intro slot
        have after := allowed offset slot
        rw [List.take_take, ← same, same.trans left.2] at after
        rcases after with old | whole | bad
        · rw [old, partly.written.2]
          exact partly.cut slot
        · rw [whole, written.2]
          exact cut slot
        · exact .inr (.inr bad)

/-- The cache after some native writes is below a write of so many bytes. -/
theorem Partly.update (partly : Partly file offset buffer high disk count) :
    disk.content = (high.update (.write offset (buffer.take count))).content ∧
      ∀ image, Survives (nativeTearing file) disk image →
        Survives (tearing file) (high.update (.write offset (buffer.take count))) image := by
  refine ⟨by rw [update_content]; exact partly.written.2, fun image survives => ?_⟩
  rcases partly.survives image survives with held | ⟨kept, few, allowed, same⟩
  · exact survives_more held
  · have torn : Survives (tearing file) (high.update (.write offset (buffer.take count)))
        (writeAt high.content offset ((buffer.take count).take kept)) :=
      .torn high.pending [] offset (buffer.take count) kept rfl (tear_shorter allowed few)
    rw [List.take_take, Nat.min_eq_left few, ← same] at torn
    exact torn

end Chunks

end Timelite.Native
