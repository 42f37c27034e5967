import Timelite.Objects
import Timelite.Grounding
import Timelite.Lifecycle

/-!
The functions of file_io_windows.c on the Win32 calls do what the backend does: every
execution of a program over the Win32 calls is one of it over the backend.
-/
namespace Timelite.Porting
open ByteFile Program Durable BackendLaws Lowering Win32 Objects
open Native hiding Step Looks Harmless work
open Timelite.Backend hiding fileRead fileWrite fileSize fileTruncate fileSync fileProvision fileLock
open Grounding hiding related Wrote meets_once looks_once failed_looks refused_faulty
open Syscalls (TimeliteFile reported transferred enametoolong Handles)
open Transfers (WindowsError WindowsCall WindowsReply windowsError windowsRead windowsWrite checkTransfer int64Max transferLoop ReadFrom read_start
  read_more read_ended capped)

section Rules
variable {volume : Volume} {space last : Space} {store : Store} {call : Call} {file : File} {handle : WinFile} {cut : Space → Prop}
  {α : Type}

theorem last_error_faulty {error : WindowsError} (known : Known error) : Faulty (lastError error) := reported_faulty known

/-- The program comes to what the backend does for the request. -/
def Serves (volume : Volume) (call : Call) (store : Store) (space : Space) (program : Win call.Answer) : Prop :=
  Meets (Step volume) (fun last => Hangs call store last.toKernel)
    (fun result last => Replies space.toKernel call store result last.toKernel) program space

/-- A handle that is open is on its file. -/
def Holds (space : Space) (handle : WinFile) (file : File) : Prop :=
  ∀ number : Nat, handle.handle = .object number → space.table number = some (.file file) ∧ (space.store.disk? file).isSome = true

theorem fails_at {code : Errno} (below : Below space.store store) (faulty : Faulty code) :
    Hangs call store space.toKernel ∧ Replies space.toKernel call store (.error code) space.toKernel := fails_still below faulty

-- Only the file pointers have moved.
theorem hangs_unmoved (below : Below space.store store) (same : last.toKernel = space.toKernel) : Hangs call store last.toKernel := by
  rw [same]
  exact hangs_still below

theorem fails_unmoved {code : Errno} (below : Below space.store store) (same : last.toKernel = space.toKernel) (faulty : Faulty code) :
    Hangs call store last.toKernel ∧ Replies space.toKernel call store (.error code) last.toKernel := by
  rw [same]
  exact fails_at below faulty

theorem meets_once {call : WinCall} {post : Except Errno call.Answer → Space → Prop} (kept : cut space)
    (good : ∀ answer next, Step volume space ⟨call, .ok answer⟩ next → cut next ∧ post (.ok answer) next)
    (bad : ∀ error next, Step volume space ⟨call, .error error⟩ next → cut next ∧ post (.error (lastError error)) next) :
    Meets (Step volume) cut post (Win.once call) space := by
  refine meets_ask kept fun reply middle first => ?_
  cases reply with
  | ok answer => exact meets_done (good answer middle first).1 (good answer middle first).2
  | error error => exact meets_fail (bad error middle first).1 (bad error middle first).2

theorem meets_check {next : Nat → Win α} {post : Except Errno α → Space → Prop}
    (good : ∀ number, handle.handle = .object number → Meets (Step volume) cut post (next number) space)
    (bad : cut space ∧ post (.error .ebadf) space) : Meets (Step volume) cut post (checkFile handle >>= next : Win α) space := by
  unfold checkFile
  cases found : handle.handle with
  | object number => exact good number found
  | null | invalid => exact meets_fail bad.1 bad.2

theorem looks_once {call : WinCall} {holds : call.Answer → Prop} (kept : cut space)
    (good : ∀ answer last, Step volume space ⟨call, .ok answer⟩ last → last = space ∧ holds answer)
    (bad : ∀ error last, Step volume space ⟨call, .error error⟩ last → last = space ∧ Faulty (lastError error)) :
    Meets (Step volume) cut (Looked space holds) (Win.once call) space := by
  refine meets_once kept ?_ ?_
  · intro answer last step
    obtain ⟨rfl, here⟩ := good answer last step
    exact ⟨kept, rfl, here⟩
  · intro error last step
    obtain ⟨rfl, faulty⟩ := bad error last step
    exact ⟨kept, rfl, faulty⟩

/-- Calls whose failure changes nothing. -/
def Idle : WinCall → Prop
  | .createFileW _ _ | .transfer _ _ | .setEndOfFile _ | .flushFileBuffers _ | .closeHandle _ => False
  | _ => True

theorem failed_looks {call : WinCall} {error : WindowsError} (step : Step volume space ⟨call, .error error⟩ last) (looks : Idle call) :
    last = space ∧ Faulty (lastError error) := by
  cases step with
  | failed harmless known => exact ⟨rfl, last_error_faulty known⟩
  | unopened | missed | cut | flushed | closed => exact looks.elim

theorem answered_looks {call : WinCall} {answer : call.Answer} (step : Step volume space ⟨call, .ok answer⟩ last) (looks : Looks call) :
    last = space ∧ True := by
  cases step with
  | looked => exact ⟨rfl, trivial⟩
  | widened | opened | created | sized | sought | read | wrote | cut | flushed | closed => exact looks.elim

end Rules

section Requests
variable {volume : Volume} {space last : Space} {store : Store} {file : File} {handle : WinFile} {cut : Space → Prop} {limit : Nat}

theorem size_looks (kept : cut space) (holds : Holds space handle file) :
    Meets (Step volume) cut (Looked space fun size => size = (space.store.content file).length) (fileSize handle) space := by
  have still : ∀ code, Faulty code → cut space ∧ Looked space (fun size => size = (space.store.content file).length) (.error code) space :=
    fun code faulty => ⟨kept, rfl, faulty⟩
  refine meets_check (fun number found => ?_) (still _ ⟨nofun, nofun⟩)
  have sized : Meets (Step volume) cut (Looked space fun size : Int => 0 ≤ size → size = (space.store.content file).length)
      (Win.once (.getFileSizeEx number)) space := by
    refine @looks_once volume space cut (.getFileSizeEx number) _ kept ?_ fun error last step => failed_looks step trivial
    intro answer last step
    cases step with
    | looked looks => exact looks.elim
    | sized held known =>
        cases (holds number found).1.symm.trans held
        exact ⟨rfl, known⟩
  refine meets_look sized (fun size known => ?_) still
  refine meets_require (fun wide => ?_) fun _ => still _ ⟨nofun, nofun⟩
  exact meets_give kept ⟨rfl, by rw [known wide]; rfl⟩

theorem size_serves (below : Below space.store store) (holds : Holds space handle file) :
    Serves volume (.size file) store space (fileSize handle) := by
  refine meets_mono (size_looks (hangs_still below) holds) (fun _ here => here) fun result last here => ?_
  cases result with
  | ok size =>
      obtain ⟨rfl, rfl⟩ := here
      refine (serves_still ?_ below).2
      rw [below.content file]
      rfl
  | error code =>
      obtain ⟨rfl, faulty⟩ := here
      exact (fails_at below faulty).2

theorem lock_serves (below : Below space.store store) : Serves volume (.lock file) store space (fileLock handle) := by
  refine meets_check (fun number _ => ?_) (fails_at below ⟨nofun, nofun⟩)
  refine meets_ask (hangs_still below) fun reply middle step => ?_
  cases reply with
  | ok answer =>
      obtain ⟨rfl, _⟩ := answered_looks step trivial
      have served := @serves_still middle.toKernel store (.lock file) (.ok ()) rfl below
      exact meets_give served.1 served.2
  | error error =>
      obtain ⟨rfl, faulty⟩ := failed_looks step trivial
      cases error with
      | lockViolation =>
          have failed := @fails_at middle store (.lock file) .ebusy below ⟨nofun, nofun⟩
          exact meets_fail failed.1 failed.2
      | _ =>
          have failed := @fails_at middle store (.lock file) _ below faulty
          exact meets_fail failed.1 failed.2

end Requests

section Transferring
variable {volume : Volume} {space last : Space} {store : Store} {file : File} {handle : WinFile} {cut : Space → Prop} {limit : Nat}

-- A check that passes has seen an open handle.
theorem accepted_object {offset length : Nat} (accepted : checkTransfer handle.handle.opened offset length = .ok ()) :
    handle.handle = .object handle.handle.number := by
  cases found : handle.handle with
  | object number => rfl
  | null | invalid =>
      rw [found] at accepted
      cases accepted

/-- A failed transfer moves nothing but the file pointer. -/
theorem missed_step {number : Nat} {call : WindowsCall} {error : WindowsError} (held : space.table number = some (.file file))
    (step : Step volume space ⟨.transfer number call, .error error⟩ last) :
    last.toKernel = space.toKernel ∧ Faulty (lastError error) ∧
      (error = .handleEof → (space.store.content file).length ≤ space.pointer number) := by
  cases step with
  | failed harmless => exact harmless.elim
  | missed known ended => exact ⟨rfl, last_error_faulty known, fun same => ended same file held⟩

theorem sought_step {number offset : Nat} (step : Step volume space ⟨.transfer number (.setFilePointerEx offset), .ok ()⟩ last) :
    last.toKernel = space.toKernel ∧ last.pointer number = offset := by
  cases step with
  | looked looks => exact looks.elim
  | sought => exact ⟨rfl, Function.update_self _ _ _⟩

/-- A read takes what is at the file pointer, none only at the end. -/
theorem read_step {number count : Nat} {data : Bytes} (held : space.table number = some (.file file))
    (step : Step volume space ⟨.transfer number (.readFile count), .ok data⟩ last) :
    last.toKernel = space.toKernel ∧ last.pointer number = space.pointer number + data.length ∧
      (data.length = 0 → (space.store.content file).length ≤ space.pointer number) ∧
        ∃ most, most ≤ count ∧ data = readAt (space.store.content file) (space.pointer number) most := by
  cases step with
  | looked looks => exact looks.elim
  | @read _ _ most _ held' asked ended =>
      cases held.symm.trans held'
      exact ⟨rfl, Function.update_self _ _ _, ended, most, asked, rfl⟩

/-- A write leaves what has moved at the file pointer. -/
theorem wrote_step {number moved : Nat} {bytes : Bytes} (held : space.table number = some (.file file))
    (step : Step volume space ⟨.transfer number (.writeFile bytes), .ok moved⟩ last) :
    last.toKernel = ⟨space.store.update file (.write (space.pointer number) (bytes.take moved)), space.table⟩ ∧
      last.pointer number = space.pointer number + moved ∧ moved ≤ bytes.length ∧
        (nativeTearing file).allows (space.store.content file) (space.pointer number) bytes moved := by
  cases step with
  | looked looks => exact looks.elim
  | wrote held' asked torn =>
      cases held.symm.trans held'
      exact ⟨rfl, Function.update_self _ _ _, asked, torn⟩

/-- The transfers of one handle. -/
def Moves (volume : Volume) (number : Nat) (state : Space) (event : Event WindowsReply) (next : Space) : Prop :=
  Step volume state ⟨.transfer number event.1, event.2⟩ next

theorem meets_handle {number : Nat} {γ : Type} {post : γ → Space → Prop} {program : Prog WindowsReply (Option γ)}
    (meets : Meets (Moves volume number) cut post program space) : Meets (Step volume) cut post (onHandle number program) space :=
  meets_embed meets fun _ _ _ _ first => first

/-- What a transfer returns to the caller. -/
def returned {α : Type} : Except Transfers.Errno Unit × α → Except Errno α
  | (.ok _, moved) => .ok moved
  | (.error code, _) => .error (reported code)

theorem meets_transferred {number : Nat} {α : Type} {post : Except Errno α → Space → Prop}
    {program : Prog WindowsReply (Option (Except Transfers.Errno Unit × α))}
    (meets : Meets (Moves volume number) cut (fun result state => cut state ∧ post (returned result) state) program space) :
    Meets (Step volume) cut post ((onHandle number program).bind (chain transferred)) space := by
  refine meets_bind (meets_handle meets) ?_
  rintro ⟨result, moved⟩ middle ⟨kept, here⟩
  cases result with
  | error code => exact meets_fail kept here
  | ok _ => exact meets_give kept here

-- The one seek before a loop.
theorem meets_sought {number offset : Nat} {α : Type} {start : α} {post : Except Transfers.Errno Unit × α → Space → Prop}
    {program : Prog WindowsReply (Option (Except Transfers.Errno Unit × α))} (held : space.table number = some (.file file))
    (kept : ∀ state, state.toKernel = space.toKernel → cut state)
    (failed : ∀ state error, state.toKernel = space.toKernel → Faulty (lastError error) → post (.error (windowsError error), start) state)
    (rest : ∀ state, state.toKernel = space.toKernel → state.pointer number = offset → Meets (Moves volume number) cut post program state) :
    Meets (Moves volume number) cut post (.ask (.setFilePointerEx offset) fun
      | .error error => .done (some (.error (windowsError error), start))
      | .ok () => program) space := by
  refine meets_ask (kept _ rfl) fun reply middle step => ?_
  cases reply with
  | error error =>
      obtain ⟨same, faulty, _⟩ := missed_step held step
      exact meets_done (kept _ same) (failed _ _ same faulty)
  | ok _ =>
      obtain ⟨same, placed⟩ := sought_step step
      exact rest middle same placed

theorem read_serves {offset length : Nat} (below : Below space.store store) (holds : Holds space handle file) :
    Serves volume (.read file offset length) store space (fileRead limit handle offset length) := by
  have same := below.content file
  have gives : ∀ (state : Space) bytes, state.toKernel = space.toKernel → ReadFrom (space.store.content file) offset length bytes →
      bytes.length = min length ((space.store.content file).length - offset) → Hangs (.read file offset length) store state.toKernel ∧
        Replies space.toKernel (.read file offset length) store (.ok bytes) state.toKernel := by
    intro state bytes unmoved read whole
    rw [same] at read whole
    rw [unmoved]
    exact serves_still (Transfers.delivered_serves ⟨fun _ _ => whole, read.1, read.2, rfl⟩) below
  refine meets_transferred ?_
  unfold windowsRead
  cases accepted : checkTransfer handle.handle.opened offset length with
  | error error => exact meets_done (hangs_unmoved below rfl) (fails_at below (Grounding.refused_faulty accepted))
  | ok _ =>
      have held := (holds _ (accepted_object accepted)).1
      by_cases empty : length = 0
      · simp only [if_pos empty]
        exact meets_done (hangs_unmoved below rfl) (gives _ _ rfl read_start (by simp [empty]))
      simp only [if_neg empty]
      refine meets_sought held (fun _ => hangs_unmoved below) (fun state error => fails_unmoved below) fun state begun placed => ?_
      refine meets_loop (fun state bytes => state.toKernel = space.toKernel ∧ state.pointer handle.handle.number = offset + bytes.length ∧
        ReadFrom (space.store.content file) offset length bytes) (fun state bytes here => hangs_unmoved below here.1) ?_ ?_
        ⟨begun, placed, read_start⟩ length
      · rintro state bytes reply next ⟨begun, placed, read⟩ more step
        rw [← begun] at held
        -- The end of the file is told by an error or by no bytes.
        have ends : ∀ next : Space, next.toKernel = space.toKernel → (state.store.content file).length ≤ state.pointer handle.handle.number →
            Hangs (.read file offset length) store next.toKernel ∧
              Replies space.toKernel (.read file offset length) store (.ok bytes) next.toKernel := by
          intro next unmoved beyond
          rw [placed, begun] at beyond
          exact gives next bytes unmoved read (read_ended read beyond)
        cases reply with
        | error error =>
            obtain ⟨unmoved, faulty, ended⟩ := missed_step held step
            have same' := unmoved.trans begun
            by_cases atEnd : error = .handleEof
            · simp only [if_pos atEnd]
              exact ⟨hangs_unmoved below same', ends next same' (ended atEnd)⟩
            · simp only [if_neg atEnd]
              exact ⟨hangs_unmoved below same', fails_unmoved below same' faulty⟩
        | ok data =>
            obtain ⟨unmoved, further, ended, most, asked, same⟩ := read_step held step
            by_cases none : data.length = 0
            · simp only [if_pos none]
              exact ⟨hangs_unmoved below (unmoved.trans begun), ends _ (unmoved.trans begun) (ended none)⟩
            · simp only [if_neg none]
              refine ⟨unmoved.trans begun, ?_, ?_⟩
              · rw [further, placed, List.length_append, Nat.add_assoc]
              · rw [same, placed, begun]
                exact read_more read asked
      · rintro state bytes ⟨begun, placed, read⟩ full
        have within := read.1
        have available := read.available
        exact gives _ _ begun read (by omega)

/-- What a write leaves: all of the buffer, or as far as it came where it was begun. -/
def Left (space : Space) (store : Store) (file : File) (offset : Nat) (buffer : Bytes) : Except Errno Nat → Space → Prop
  | .ok count, state => count = buffer.length ∧ Writing space.toKernel store file offset buffer state.toKernel buffer.length
  | .error code, state => Faulty code ∧ (state.toKernel = space.toKernel ∨
      ∃ count, Writing space.toKernel store file offset buffer state.toKernel count)

theorem write_meets {offset : Nat} {buffer : Bytes} (below : Below space.store store) (large : 64 ≤ limit) (holds : Holds space handle file)
    (kept : ∀ state : Space, state.toKernel = space.toKernel → cut state)
    (writing : ∀ state count, Writing space.toKernel store file offset buffer state.toKernel count → cut state) :
    Meets (Step volume) cut (Left space store file offset buffer) (fileWrite limit handle offset buffer) space := by
  refine meets_transferred ?_
  unfold windowsWrite
  cases accepted : checkTransfer handle.handle.opened offset buffer.length with
  | error error => exact meets_done (kept _ rfl) ⟨kept _ rfl, Grounding.refused_faulty accepted, .inl rfl⟩
  | ok _ =>
      obtain ⟨held, present⟩ := holds _ (accepted_object accepted)
      have start : Writing space.toKernel store file offset buffer space.toKernel 0 :=
        ⟨space.store.disk file, by rw [put_disk present], partly_start (below.content file) (below.survives file)⟩
      by_cases empty : buffer.length = 0
      · simp only [if_pos empty]
        refine meets_done (kept _ rfl) ⟨kept _ rfl, empty.symm, ?_⟩
        rw [empty]
        exact start
      simp only [if_neg empty]
      refine meets_sought held kept (fun state error same faulty => ⟨kept _ same, faulty, .inl same⟩) fun state begun placed => ?_
      refine meets_loop (fun state count => state.pointer handle.handle.number = offset + count ∧
        Writing space.toKernel store file offset buffer state.toKernel count) (fun state count here => writing _ _ here.2) ?_ ?_
        ⟨placed, begun ▸ start⟩ buffer.length
      · rintro state count reply next ⟨placed, disk, same, partly⟩ more step
        have held' : state.table handle.handle.number = some (.file file) := by
          rw [same]
          exact held
        cases reply with
        | error error =>
            obtain ⟨unmoved, faulty, _⟩ := missed_step held' step
            have further : Writing space.toKernel store file offset buffer next.toKernel count := ⟨disk, unmoved.trans same, partly⟩
            exact ⟨writing _ _ further, writing _ _ further, faulty, .inr ⟨count, further⟩⟩
        | ok moved =>
            obtain ⟨after, further, asked, torn⟩ := wrote_step held' step
            have content : state.store.content file = disk.content := by
              rw [same]
              simp only [Store.content, Store.disk, put_found, Option.getD_some]
            rw [content, placed] at torn
            have onward : Writing space.toKernel store file offset buffer next.toKernel (count + moved) := by
              rw [after, placed, same]
              exact writing_more (partly_more partly large asked torn)
            by_cases none : moved = 0
            · simp only [if_pos none]
              exact ⟨writing _ _ onward, writing _ _ onward, reported_faulty ⟨by decide, by decide⟩, .inr ⟨_, onward⟩⟩
            · simp only [if_neg none]
              refine ⟨?_, onward⟩
              rw [further, placed, Nat.add_assoc]
      · rintro state count ⟨placed, disk, same, partly⟩ full
        have whole : count = buffer.length := Nat.le_antisymm partly.written.1 (Nat.le_of_not_lt full)
        subst whole
        exact ⟨writing _ _ ⟨disk, same, partly⟩, rfl, disk, same, partly⟩

theorem writing_hangs {offset count : Nat} {buffer : Bytes} {state : Space} (below : Below space.store store)
    (writing : Writing space.toKernel store file offset buffer state.toKernel count) : Hangs (.write file offset buffer) store state.toKernel :=
  ⟨_, .fail (.write file offset buffer count store .eio (writing_cut writing)) (.stop _ _), writing.below below⟩

theorem write_serves {offset : Nat} {buffer : Bytes} (below : Below space.store store) (large : 64 ≤ limit) (holds : Holds space handle file) :
    Serves volume (.write file offset buffer) store space (fileWrite limit handle offset buffer) := by
  have meets := @write_meets volume space store file handle _ limit offset buffer below large holds (fun _ => hangs_unmoved below)
    fun state count => writing_hangs below
  refine meets_mono meets (fun _ here => here) fun result last here => ?_
  cases result with
  | error code =>
      obtain ⟨faulty, same | ⟨count, writing⟩⟩ := here
      · exact (fails_unmoved below same faulty).2
      · have below' := writing.below below
        have torn := writing_cut writing
        refine ⟨_, .fail (.write file offset buffer count store code torn) (.done _ _), below', ?_⟩
        obtain ⟨disk, same, partly⟩ := writing
        rw [same]
        exact ⟨rfl, present_put⟩
  | ok count =>
      obtain ⟨rfl, writing⟩ := here
      have below' := writing.below below
      rw [List.take_length] at below'
      obtain ⟨disk, same, partly⟩ := writing
      refine (@serves space.toKernel last.toKernel store (.write file offset buffer) _ _ rfl below' (by rw [same]) ?_).2
      rw [same]
      exact present_put

end Transferring

section Changing
variable {volume : Volume} {space last : Space} {store : Store} {file : File} {handle : WinFile} {limit size : Nat}

-- A zero byte just below the new end extends a file.
theorem write_extends {content : Bytes} (short : content.length < size) : writeAt content (size - 1) [0] = resize content size := by
  have before : content.take (size - 1) = content := List.take_of_length_le (by omega)
  have whole : content.take size = content := List.take_of_length_le (by omega)
  have beyond : content.drop (size - 1 + [(0 : UInt8)].length) = [] := List.drop_eq_nil_of_le (by simp; omega)
  have zeros : List.replicate (size - content.length) (0 : UInt8) = List.replicate (size - 1 - content.length) 0 ++ [0] := by
    rw [← List.replicate_succ']
    congr 1
    omega
  rw [writeAt, if_neg (by simp), before, beyond, resize, whole, zeros, List.append_nil, List.append_assoc]

/-- The write of that byte has happened or has not. -/
theorem extending {kernel state : Kernel} {count : Nat} (below : Below kernel.store store) (present : (kernel.store.disk? file).isSome = true)
    (short : (store.content file).length < size) (writing : Writing kernel store file (size - 1) [0] state count) :
    (Below state.store store ∨ Below state.store (store.update file (.truncate size))) ∧ (count = 1 → Below state.store
      (store.update file (.truncate size))) := by
  obtain ⟨disk, rfl, partly⟩ := writing
  have few : count ≤ 1 := partly.written.1
  have extended : writeAt (store.disk file).content (size - 1) [0] = ((store.disk file).update (.truncate size)).content := by
    rw [update_content]
    exact write_extends short
  have survives : ∀ kept image, kept ≤ 1 → image = writeAt (store.disk file).content (size - 1) ([0].take kept) →
      image = (store.disk file).content ∨ kept = 1 ∧ image = ((store.disk file).update (.truncate size)).content := by
    intro kept image most same
    rcases Nat.lt_or_eq_of_le most with none | one
    · left
      rw [same, Nat.lt_one_iff.mp none, List.take_zero, write_nil]
    · subst one
      exact .inr ⟨rfl, same.trans extended⟩
  have after : count = 1 → Below (kernel.store.put file disk) (store.update file (.truncate size)) := by
    rintro rfl
    refine below.put (partly.written.2.trans extended) fun image left => ?_
    rcases partly.survives image left with old | ⟨kept, most, _, same⟩
    · exact survives_more old
    · rcases survives kept image most same with old | ⟨_, new⟩
      · rw [old]
        exact survives_more (survives_content _)
      · rw [new]
        exact survives_content _
  refine ⟨?_, after⟩
  rcases Nat.lt_or_eq_of_le few with none | one
  · left
    obtain rfl := Nat.lt_one_iff.mp none
    rw [← @put_disk file store (by rw [← below.present]; exact present)]
    refine below.put (partly.written.2.trans (by rw [List.take_zero, write_nil])) fun image left => ?_
    rcases partly.survives image left with old | ⟨kept, most, _, same⟩
    · exact old
    · obtain rfl := Nat.le_zero.mp most
      rw [same, List.take_zero, write_nil]
      exact survives_content _
  · exact .inr (after one)

/-- What a truncation comes to: nothing, or the new size. -/
theorem truncates {kernel state : Kernel} {code : Errno} (faulty : Faulty code) (table : state.table = kernel.table)
    (present : Present kernel state) (either : Below state.store store ∨ Below state.store (store.update file (.truncate size))) :
    Hangs (.truncate file size) store state ∧ Replies kernel (.truncate file size) store (.error code) state := by
  rcases either with before | after
  · exact ⟨hangs_still before, replies_fault before table present faulty⟩
  · exact ⟨⟨_, .fail (.truncate file size store code) (.stop _ _), after⟩, _, .fail (.truncate file size store code) (.done _ _), after,
      table, present⟩

theorem extend_serves (below : Below space.store store) (large : 64 ≤ limit) (holds : Holds space handle file)
    (short : (store.content file).length < size) (opened : handle.handle.opened = true) :
    Serves volume (.truncate file size) store space (extendFile limit handle size) := by
  have present : (space.store.disk? file).isSome = true := by
    cases found : handle.handle with
    | object number => exact (holds number found).2
    | null | invalid =>
        rw [found] at opened
        cases opened
  have faulty : Faulty .eio := ⟨nofun, nofun⟩
  have writing : ∀ (state : Space) count, Writing space.toKernel store file (size - 1) [0] state.toKernel count →
      state.table = space.table ∧ Present space.toKernel state.toKernel ∧
        (Below state.store store ∨ Below state.store (store.update file (.truncate size))) := by
    intro state count writing
    obtain ⟨disk, same, partly⟩ := id writing
    rw [same]
    exact ⟨rfl, present_put, same ▸ (extending below present short writing).1⟩
  refine meets_proceed (write_meets below large holds (fun _ => hangs_unmoved below) fun state count here => ?_) ?_ ?_
  · obtain ⟨table, present', either⟩ := writing state count here
    exact (truncates faulty table present' either).1
  · rintro count middle ⟨rfl, here⟩
    obtain ⟨table, present', _⟩ := writing middle _ here
    have served := @serves space.toKernel middle.toKernel store (.truncate file size) (.ok ()) _ rfl
      ((extending below present short here).2 rfl) table present'
    exact meets_give served.1 served.2
  · rintro code middle ⟨faulty, same | ⟨count, here⟩⟩
    · exact fails_unmoved below same faulty
    · obtain ⟨table, present', either⟩ := writing middle count here
      exact truncates faulty table present' either

theorem cut_serves {number : Nat} (below : Below space.store store) (held : space.table number = some (.file file)) :
    Serves volume (.truncate file size) store space (cutFile number size) := by
  refine meets_proceed (@meets_once volume space (fun last => Hangs (.truncate file size) store last.toKernel)
    (.transfer number (.setFilePointerEx size)) (fun result state => state.toKernel = space.toKernel ∧ match result with
      | .ok _ => state.pointer number = size
      | .error code => Faulty code) (hangs_still below) ?_ ?_) ?_ ?_
  · intro answer last step
    obtain ⟨same, placed⟩ := sought_step step
    exact ⟨hangs_unmoved below same, same, placed⟩
  · intro error last step
    obtain ⟨same, faulty, _⟩ := missed_step held step
    exact ⟨hangs_unmoved below same, same, faulty⟩
  · rintro _ middle ⟨same, placed⟩
    rw [← same] at held
    have before : Below middle.store store := by
      rw [same]
      exact below
    have after : Below (middle.store.update file (.truncate size)) (store.update file (.truncate size)) := before.truncate
    have found : Present space.toKernel middle.toKernel := by
      rw [same]
      exact fun _ found => found
    refine @meets_once volume middle (fun last => Hangs (.truncate file size) store last.toKernel) (.setEndOfFile number)
      (fun result last => Replies space.toKernel (.truncate file size) store result last.toKernel) (hangs_still before) ?_ ?_
    · intro answer last step
      cases step with
      | looked looks => exact looks.elim
      | cut held' known =>
          cases held.symm.trans held'
          rw [placed]
          exact serves rfl after (by rw [← same]; rfl) found.of_put
    · intro error last step
      cases step with
      | failed harmless known => exact truncates (last_error_faulty known) (by rw [same]) found (.inl before)
      | cut held' known =>
          cases held.symm.trans held'
          rw [placed]
          exact truncates (last_error_faulty (known error rfl)) (by rw [← same]; rfl) found.of_put (.inr after)
  · rintro code middle ⟨same, faulty⟩
    exact fails_unmoved below same faulty

theorem truncate_serves (below : Below space.store store) (large : 64 ≤ limit) (holds : Holds space handle file) :
    Serves volume (.truncate file size) store space (fileTruncate limit handle size) := by
  refine meets_check (fun number found => ?_) (fails_at below ⟨nofun, nofun⟩)
  refine meets_require (fun _ => ?_) fun _ => fails_at below ⟨nofun, nofun⟩
  refine meets_look (size_looks (hangs_still below) holds) (fun oldSize same => ?_) fun code faulty => fails_at below faulty
  by_cases short : oldSize < size
  · rw [if_pos short]
    rw [same, below.content file] at short
    exact extend_serves below large holds short (by rw [found]; rfl)
  · rw [if_neg short]
    exact cut_serves below (holds number found).1

theorem sync_serves (below : Below space.store store) (holds : Holds space handle file) :
    Serves volume (.sync file) store space (fileSync handle) := by
  refine meets_check (fun number found => ?_) (fails_at below ⟨nofun, nofun⟩)
  obtain ⟨held, present⟩ := holds number found
  have same : Present space.toKernel space.toKernel := fun _ found => found
  refine @meets_once volume space (fun last => Hangs (.sync file) store last.toKernel) (.flushFileBuffers number)
    (fun result last => Replies space.toKernel (.sync file) store result last.toKernel) (hangs_still below) ?_ ?_
  · intro answer last step
    cases step with
    | looked looks => exact looks.elim
    | flushed held' known =>
        cases held.symm.trans held'
        exact serves rfl (below.sync file) rfl same.of_put
  · intro error last step
    cases step with
    | failed harmless known => exact fails_at below (last_error_faulty known)
    | flushed held' known =>
        cases held.symm.trans held'
        have after := below.synced present
        exact ⟨hangs_still after, replies_fault after rfl same.of_put (last_error_faulty (known error rfl))⟩

end Changing

section Opening
variable {volume : Volume} {space last : Space} {store : Store} {file : File} {handle : WinFile} {createNew : Bool} {path : Bytes}

/-- The handle as a descriptor: NULL and INVALID_HANDLE_VALUE are none. -/
def lowered (handle : WinFile) : TimeliteFile :=
  match handle.handle with
  | .object number => ⟨number⟩
  | .null | .invalid => .closed

theorem reported_missing {code : Transfers.Errno} (missing : reported code = .enoent) : code = .enoent := by
  cases code <;> first | rfl | cases missing

theorem reported_existing {code : Transfers.Errno} (existing : reported code = .eexist) : code = .eexist := by
  cases code <;> first | rfl | cases existing

theorem create_descends {path : Wide} (named : volume.named path = some file) :
    Meets (Step volume) (fun last => Entering space.toKernel file createNew last.toKernel)
      (fun result last => Descends space.toKernel file createNew (result.map Int.ofNat) last.toKernel)
      (Win.once (.createFileW path createNew)) space := by
  refine @meets_once volume space (fun last => Entering space.toKernel file createNew last.toKernel) (.createFileW path createNew)
    (fun result last => Descends space.toKernel file createNew (result.map Int.ofNat) last.toKernel) (.inl rfl) ?_ ?_
  · intro answer next step
    cases step with
    | looked looks => exact looks.elim
    | opened named' present unused =>
        cases named.symm.trans named'
        exact ⟨.inl rfl, Int.natCast_nonneg _, unused, present, rfl⟩
    | created named' absent unused =>
        cases named.symm.trans named'
        exact ⟨.inr ⟨absent, rfl⟩, Int.natCast_nonneg _, unused, absent, rfl⟩
  · intro error next step
    cases step with
    | failed harmless => exact harmless.elim
    | unopened missing existing =>
        exact ⟨.inl rfl, rfl, fun found => (missing (reported_missing found)).imp_right fun none => none file named,
          fun found => (existing (reported_existing found)).imp_right fun some => some file named⟩

theorem check_looks {cut : Space → Prop} {number : Nat} (kept : cut space) :
    Meets (Step volume) cut (Looked space fun _ => True) (checkObject number) space := by
  have bad : ∀ code, Faulty code → cut space ∧ Looked space (fun _ : Unit => True) (.error code) space :=
    fun code faulty => ⟨kept, rfl, faulty⟩
  have asks : ∀ call : WinCall, Looks call → Idle call → Meets (Step volume) cut (Looked space fun _ => True) (Win.once call) space :=
    fun call looks idle => looks_once kept (fun answer last step => answered_looks step looks) fun error last step => failed_looks step idle
  refine meets_look (asks (.getFileType number) trivial trivial) (fun disk _ => ?_) bad
  refine meets_require (fun _ => ?_) fun _ => bad _ ⟨nofun, nofun⟩
  refine meets_look (asks (.getFileInformationByHandle number) trivial trivial) (fun directory _ => ?_) bad
  unfold Fallible.require
  split
  · exact meets_give kept ⟨rfl, trivial⟩
  · exact meets_fail kept ⟨rfl, nofun, nofun⟩

theorem closed_step {number : Nat} {reply : WinReply (.closeHandle number)} (step : Step volume space ⟨.closeHandle number, reply⟩ last) :
    last = space.object number none ∧ ∀ error, reply = .error error → Faulty (lastError error) := by
  cases step with
  | looked looks => exact looks.elim
  | failed harmless => exact harmless.elim
  | closed known => exact ⟨rfl, fun error same => last_error_faulty (known error same)⟩

theorem abandon_leaves {number : Nat} {code : Errno} (faulty : Faulty code) (unused : space.table number = none)
    (table : last.table = Function.update space.table number (some (.file file))) (entering : Entering space.toKernel file createNew last.toKernel) :
    Meets (Step volume) (fun last => Entering space.toKernel file createNew last.toKernel)
      (fun result last => Entered space.toKernel file createNew (lowered handle) (result.map lowered) last.toKernel)
      (abandon number code : Win WinFile) last := by
  refine meets_ask entering fun reply next step => ?_
  obtain ⟨rfl, _⟩ := closed_step step
  have same : Function.update last.table number none = space.table := by
    rw [table, Function.update_idem]
    exact (congrArg _ unused.symm).trans (Function.update_eq_self _ _)
  exact meets_fail entering (.inr ⟨same, entering, faulty⟩)

theorem open_enters (named : volume.named (volume.widen path) = some file) :
    Meets (Step volume) (fun last => Entering space.toKernel file createNew last.toKernel)
      (fun result last => Entered space.toKernel file createNew (lowered handle) (result.map lowered) last.toKernel)
      (openFile handle path createNew) space := by
  have bad : ∀ code, Faulty code → Entering space.toKernel file createNew space.toKernel ∧
      Entered space.toKernel file createNew (lowered handle) (.error code) space.toKernel := fun code faulty =>
    ⟨.inl rfl, .inr ⟨rfl, .inl rfl, faulty⟩⟩
  refine meets_require (fun _ => ?_) fun _ => bad _ ⟨nofun, nofun⟩
  refine meets_require (fun closed => ?_) fun _ => bad _ ⟨nofun, nofun⟩
  refine meets_require (fun _ => ?_) fun _ => bad _ ⟨nofun, nofun⟩
  refine meets_look (@looks_once volume space _ (.multiByteToWideChar path) (fun wide => wide = volume.widen path) (.inl rfl) ?_ ?_)
    (fun wide same => ?_) bad
  · intro answer last step
    cases step with
    | looked looks => exact looks.elim
    | widened => exact ⟨rfl, rfl⟩
  · exact fun error last step => failed_looks step trivial
  subst same
  refine meets_proceed (create_descends named) ?_ ?_
  · rintro number middle ⟨valid, unused, admits, same⟩
    have table : middle.table = Function.update space.table number (some (.file file)) :=
      (congrArg Kernel.table same).trans (congrArg (Function.update · (number : Int) _) entered_table)
    have entering : Entering space.toKernel file createNew middle.toKernel := .inr ⟨admits, by rw [same]; rfl⟩
    refine meets_examine (check_looks entering) fun result last here => ?_
    cases result with
    | ok _ =>
        obtain ⟨rfl, _⟩ := here
        have before : (lowered handle).fd = -1 := by
          rw [lowered, closed]
          rfl
        exact meets_give entering ⟨before, valid, unused, admits, same⟩
    | error code =>
        obtain ⟨rfl, faulty⟩ := here
        exact abandon_leaves faulty unused table entering
  · rintro code middle here
    exact ⟨.inl (congrArg Kernel.store here.1), .inl here⟩

end Opening

section Realizing
variable {volume : Volume} {config : Config} {handles : WinHandles} {space last : Space} {store : Store} {file : File} {call : Call} {α : Type}
  {program : Prog Reply α}

/-- The handles as descriptors. -/
def descriptors (handles : WinHandles) : Handles := fun file => lowered (handles file)

theorem descriptors_update {handle : WinFile} :
    descriptors (Function.update handles file handle) = Function.update (descriptors handles) file (lowered handle) := by
  funext other
  by_cases same : other = file
  · subst same
    rw [descriptors, Function.update_self, Function.update_self]
  · rw [descriptors, Function.update_of_ne same, Function.update_of_ne same]
    rfl

/-- A running program has its handles, one that was stopped nothing but the files. -/
def related : Option WinHandles → Space → Store → Prop
  | none, space, store => Below space.store store
  | some handles, space, store => Below space.store store ∧ Held (descriptors handles) space.toKernel

theorem held_holds (held : Held (descriptors handles) space.toKernel) (file : File) : Holds space (handles file) file := by
  intro number found
  have fd : (descriptors handles file).fd = number := by
    rw [descriptors, lowered, found]
  have valid : 0 ≤ (descriptors handles file).fd := by
    rw [fd]
    exact Int.natCast_nonneg _
  have table := held.descriptor valid
  rw [fd] at table
  exact ⟨table, held.present file valid⟩

/-- A request that keeps the handles. -/
theorem keeping_realizes {sys : Win call.Answer} (held : Held (descriptors handles) space.toKernel) (serves : Serves volume call store space sys) :
    Realizes device (Step volume) related (.ask call .done) store (keeping handles sys) space := by
  refine meets_bind (meets_mono serves (fun _ hangs => hangs) fun _ _ here => here) ?_
  rintro reply middle ⟨after, execution, below, table, present⟩
  exact meets_done ⟨after, exec_stopped device execution, below⟩ ⟨after, execution, below, held_same held table present⟩

/-- The handles after an open. -/
def taken (handles : WinHandles) (file : File) : Except Errno WinFile → WinHandles
  | .ok handle => Function.update handles file handle
  | .error _ => handles

theorem adopted_descriptors {result : Except Errno WinFile} :
    adopted (descriptors handles) file (result.map lowered) = descriptors (taken handles file result) := by
  cases result with
  | ok handle => exact descriptors_update.symm
  | error code => rfl

theorem adopts_related {result : Except Errno WinFile} {reply : Reply call}
    (adopts : Adopts call store (descriptors handles) file (result.map lowered) reply last.toKernel) :
    ∃ after, Exec device (.ask call .done) store (some reply) after ∧ related (some (taken handles file result)) last after := by
  obtain ⟨after, execution, below, held⟩ := adopts
  rw [adopted_descriptors] at held
  exact ⟨after, execution, below, held⟩

theorem open_realizes (named : volume.named (volume.widen (config.path file)) = some file) (below : Below space.store store)
    (held : Held (descriptors handles) space.toKernel) :
    Realizes device (Step volume) related (.ask (.open file) .done) store (implement config (.open file) handles) space := by
  refine meets_bind (meets_mono (open_enters named) (fun _ => entering_opens below) fun _ _ here => here) fun result last here => ?_
  have adopts := entered_opens below held here
  have kept := adopts_related adopts
  cases result <;> exact meets_done adopts.hangs kept

theorem create_realizes (named : volume.named (volume.widen (config.path file)) = some file) (below : Below space.store store)
    (held : Held (descriptors handles) space.toKernel) :
    Realizes device (Step volume) related (.ask (.create file) .done) store (implement config (.create file) handles) space := by
  refine meets_bind (meets_mono (open_enters named) (fun _ => entering_creates below) fun _ _ here => here) fun result last here => ?_
  have adopts := entered_creates below held here
  have kept := adopts_related adopts
  cases result <;> exact meets_done adopts.hangs kept

theorem close_realizes (below : Below space.store store) (held : Held (descriptors handles) space.toKernel) :
    Realizes device (Step volume) related (.ask (.close file) .done) store (implement config (.close file) handles) space := by
  change Meets _ _ _ (releasing handles file) space
  unfold releasing fileClose
  have shut : Held (descriptors (Function.update handles file (handles file))) space.toKernel := by
    rw [Function.update_eq_self]
    exact held
  have unopened : Exec device (.ask (.close file) .done) store (some (.error .ebadf)) store :=
    exec_close fun code same => by cases same; exact ⟨nofun, nofun⟩
  cases found : (handles file).handle with
  | null => exact meets_done ⟨store, .stop _ _, below⟩ ⟨store, unopened, below, shut⟩
  | invalid => exact meets_done ⟨store, .stop _ _, below⟩ ⟨store, unopened, below, shut⟩
  | object number =>
      refine meets_ask ⟨store, .stop _ _, below⟩ fun reply last step => ?_
      obtain ⟨rfl, fails⟩ := closed_step step
      have fd : (descriptors handles file).fd = number := by
        rw [descriptors, lowered, found]
      have held' := held_closed held (by rw [fd]; exact Int.natCast_nonneg _)
      rw [fd] at held'
      change Held (Function.update (descriptors handles) file (lowered .closed)) _ at held'
      rw [← descriptors_update] at held'
      cases reply with
      | ok _ => exact meets_done ⟨store, .stop _ _, below⟩ ⟨store, exec_close nofun, below, held'⟩
      | error error =>
          refine meets_done ⟨store, .stop _ _, below⟩ ⟨store, exec_close fun code same => ?_, below, held'⟩
          cases same
          exact fails error rfl

theorem refused_serves {code : Errno} (below : Below space.store store) (faulty : Faulty code) :
    Serves volume call store space (Fallible.fail code) := meets_fail (fails_at below faulty).1 (fails_at below faulty).2

/-- Each function of file_io.h does what the backend does for its request. -/
theorem implement_realizes (named : ∀ file, volume.named (volume.widen (config.path file)) = some file) (large : 64 ≤ config.limit)
    (start : related (some handles) space store) :
    Realizes device (Step volume) related (.ask call .done) store (implement config call handles) space := by
  obtain ⟨below, held⟩ := start
  have holds := held_holds held
  cases call with
  | «open» file => exact open_realizes (named file) below held
  | create file => exact create_realizes (named file) below held
  | lock file => exact keeping_realizes held (lock_serves below)
  | identity => exact keeping_realizes held (refused_serves below ⟨nofun, nofun⟩)
  | read file offset length => exact keeping_realizes held (read_serves below (holds file))
  | write file offset bytes => exact keeping_realizes held (write_serves below large (holds file))
  | size file => exact keeping_realizes held (size_serves below (holds file))
  | truncate file size => exact keeping_realizes held (truncate_serves below large (holds file))
  | sync file => exact keeping_realizes held (sync_serves below (holds file))
  | provision file => exact keeping_realizes held (refused_serves below ⟨nofun, nofun⟩)
  | close file => exact close_realizes below held

/-- Every execution on the Win32 calls is one of the backend. -/
theorem clients_realize (named : ∀ file, volume.named (volume.widen (config.path file)) = some file) (large : 64 ≤ config.limit)
    (start : related (some handles) space store) :
    Realizes device (Step volume) related program store (lower (implement config) program handles) space :=
  lower_realizes (fun _ _ _ here => here.1) (fun _ _ _ _ here => implement_realizes named large here) start

/-- Paths of ASCII characters, and transfers of one slot at most. -/
def ascii : Volume where
  widen path := path.map (·.toUInt16)
  named path := if path = [100, 98] then some .database else if path = [119, 97, 108] then some .wal else none

def slotwise : Config where
  path
    | .database => [100, 98]
    | .wal => [119, 97, 108]
  limit := 64

theorem slotwise_named : ∀ file, ascii.named (ascii.widen (slotwise.path file)) = some file := by
  intro file
  cases file <;> decide

def bare : Store := ⟨none, none, List.replicate 16 7⟩

def working : Program.Backend WinReply Space := ⟨work ascii, fun _ _ _ _ => False⟩

/-- An open of the version 1 database that creates its file. -/
def creating : Prog WinReply (Option ((Except Error Unit × Lifecycle.Db) × WinHandles)) :=
  lower (implement slotwise) (Lifecycle.dbOpen Lifecycle.dbInit [100, 98] .createNew) .closed

theorem creating_returns : (creating.run working (fresh bare)).1.map (·.1.1) = some (.ok ()) := by decide +kernel

theorem clients_realize_created : ∃ value last after, Performs (Step ascii) creating (fresh bare) (some (some value)) last ∧
    value.1.1 = .ok () ∧ Exec device (Lifecycle.dbOpen Lifecycle.dbInit [100, 98] .createNew) bare (some value.1) after ∧
      related (some value.2) last after := by
  obtain ⟨value, ran, told⟩ := Option.map_eq_some_iff.mp creating_returns
  have performs := @performs_run _ _ _ _ (Step ascii) working (fun call space => work_steps call space) creating (fresh bare)
  rw [ran] at performs
  have start : related (some WinHandles.closed) (fresh bare) bare := ⟨below_refl bare, held_idle bare⟩
  obtain ⟨after, execution, left⟩ := (clients_realize slotwise_named (Nat.le_refl 64) start _ _ performs).2 value rfl
  exact ⟨value, _, after, performs, told, execution, left⟩

end Realizing

end Timelite.Porting
