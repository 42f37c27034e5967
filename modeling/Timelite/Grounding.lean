import Timelite.Native

/-!
The functions of file_io.c on the system calls do what the backend does: every
execution of a program over the system calls is one of it over the backend.
-/
namespace Timelite.Grounding
open ByteFile Program Durable Codec BackendLaws Lowering Syscalls Native
open Timelite.Backend hiding fileRead fileWrite fileSize fileTruncate fileSync fileProvision fileLock
open Transfers (PosixError PosixCall PosixReply posixRead posixWrite checkTransfer transferLoop Reaction Delivered ReadFrom read_start
  read_more read_ended capped capped_le)

section Rules
variable {α β : Type} {State : Type} {step : State → Event SysReply → State → Prop} {cut : State → Prop} {state : State}
  {post : Except Errno α → State → Prop} {post' : Except Errno β → State → Prop}

theorem meets_once {call : SysCall} {post : Except Errno call.Answer → State → Prop} (kept : cut state)
    (good : ∀ answer next, step state ⟨call, .ok answer⟩ next → cut next ∧ post (.ok answer) next)
    (bad : ∀ error next, step state ⟨call, .error error⟩ next → cut next ∧ post (.error (errno error)) next) :
    Meets step cut post (Sys.once call) state := by
  refine meets_ask kept fun reply middle first => ?_
  cases reply with
  | ok answer => exact meets_done (good answer middle first).1 (good answer middle first).2
  | error error => exact meets_fail (bad error middle first).1 (bad error middle first).2

/-- An interrupted call that is repeated keeps the invariant. -/
theorem meets_retry {call : SysCall} {post : Except Errno call.Answer → State → Prop} (invariant : State → Prop) (start : invariant state)
    (kept : ∀ state, invariant state → cut state)
    (good : ∀ state answer next, invariant state → step state ⟨call, .ok answer⟩ next → cut next ∧ post (.ok answer) next)
    (bad : ∀ state error next, invariant state → step state ⟨call, .error error⟩ next →
      invariant next ∧ ∀ code, error = .errno code → post (.error (reported code)) next) (fuel : Nat) :
    Meets step cut post (Sys.retry call fuel) state := by
  induction fuel generalizing state with
  | zero => exact meets_none (kept _ start)
  | succ fuel ih =>
      refine meets_ask (kept _ start) fun reply middle first => ?_
      cases reply with
      | ok answer => exact meets_done (good _ answer middle start first).1 (good _ answer middle start first).2
      | error error =>
          obtain ⟨still, told⟩ := bad _ error middle start first
          cases error with
          | eintr => exact ih still
          | errno code => exact meets_fail (kept _ still) (told code rfl)

/-- The transfers of one descriptor. -/
theorem meets_descriptor {fd : Int} {γ : Type} {post : γ → State → Prop} {program : Prog PosixReply (Option γ)}
    (meets : Meets (fun state (event : Event PosixReply) next => step state ⟨.transfer fd event.1, event.2⟩ next) cut post program state) :
    Meets step cut post (onDescriptor fd program) state := meets_embed meets fun _ _ _ _ first => first

theorem meets_loop {Progress Call : Type} {Reply : Call → Type} {step : State → Event Reply → State → Prop} {length : Nat}
    {moved : Progress → Nat} {request : Progress → Call} {react : (progress : Progress) → Reply (request progress) → Reaction Progress}
    {post : Except Transfers.Errno Unit × Progress → State → Prop} (invariant : State → Progress → Prop)
    (kept : ∀ state progress, invariant state progress → cut state)
    (turn : ∀ state progress reply next, invariant state progress → moved progress < length → step state ⟨request progress, reply⟩ next →
      match react progress reply with
      | .again progress => invariant next progress
      | .leave result => cut next ∧ post (result, progress) next)
    (finish : ∀ state progress, invariant state progress → ¬ moved progress < length → post (.ok (), progress) state)
    {progress : Progress} (start : invariant state progress) (fuel : Nat) :
    Meets step cut post (transferLoop length moved request react fuel progress) state := by
  induction fuel generalizing state progress with
  | zero =>
      rw [transferLoop]
      by_cases more : moved progress < length
      · rw [if_pos more]
        exact meets_none (kept _ _ start)
      · rw [if_neg more]
        exact meets_done (kept _ _ start) (finish _ _ start more)
  | succ fuel ih =>
      rw [transferLoop]
      by_cases more : moved progress < length
      · rw [if_pos more]
        refine meets_ask (kept _ _ start) fun reply middle first => ?_
        have here := turn _ _ reply middle start more first
        cases reacts : react progress reply with
        | again next =>
            rw [reacts] at here
            exact ih here
        | leave result =>
            rw [reacts] at here
            exact meets_done here.1 here.2
      · rw [if_neg more]
        exact meets_done (kept _ _ start) (finish _ _ start more)

end Rules

section Relating
variable {path : File → Bytes} {handles : Handles} {kernel last : Kernel} {store : Store} {call : Call} {file : File} {fd : Int}

/-- The open descriptors are those of the handles. -/
structure Held (handles : Handles) (kernel : Kernel) : Prop where
  table : ∀ fd descriptor, kernel.table fd = some descriptor ↔ ∃ file, descriptor = .file file ∧ (handles file).fd = fd ∧ 0 ≤ fd
  present : ∀ file, 0 ≤ (handles file).fd → (kernel.store.disk? file).isSome = true

/-- A running program has its descriptors, one that was stopped nothing but the files. -/
def related : Option Handles → Kernel → Store → Prop
  | none, kernel, store => Below kernel.store store
  | some handles, kernel, store => Below kernel.store store ∧ Held handles kernel

theorem Held.descriptor (held : Held handles kernel) (valid : 0 ≤ (handles file).fd) :
    kernel.table (handles file).fd = some (.file file) := (held.table _ _).mpr ⟨file, rfl, rfl, valid⟩

theorem closed_below : ¬ 0 ≤ TimeliteFile.closed.fd := by decide

theorem held_idle (store : Store) : Held Handles.closed (idle store) := by
  refine ⟨fun fd descriptor => ⟨nofun, ?_⟩, fun file valid => ?_⟩
  · rintro ⟨file, rfl, rfl, valid⟩
    exact absurd valid closed_below
  · exact absurd valid closed_below

/-- The files of the one exist in the other. -/
def Present (kernel last : Kernel) : Prop := ∀ file, (kernel.store.disk? file).isSome = true → (last.store.disk? file).isSome = true

theorem present_put {disk : Disk} {table : Int → Option Descriptor} : Present kernel ⟨kernel.store.put file disk, table⟩ := by
  intro other found
  by_cases same : other = file
  · rw [same]
    exact congrArg Option.isSome (put_found _ _ _)
  · exact (congrArg Option.isSome (disk_put_other same)).trans found

theorem Present.trans {middle : Kernel} (first : Present kernel middle) (second : Present middle last) : Present kernel last :=
  fun file found => second file (first file found)

/-- What a request comes to that does not return. -/
def Hangs (call : Call) (store : Store) (last : Kernel) : Prop :=
  ∃ after, Exec device (.ask call .done) store none after ∧ Below last.store after

/-- What it comes to that returns with the same descriptors. -/
def Replies (kernel : Kernel) (call : Call) (store : Store) (reply : Reply call) (last : Kernel) : Prop :=
  ∃ after, Exec device (.ask call .done) store (some reply) after ∧ Below last.store after ∧ last.table = kernel.table ∧ Present kernel last

-- Failing to find a file or to refuse it is not a fault.
def Faulty (code : Errno) : Prop := code ≠ .enoent ∧ code ≠ .eexist

theorem hangs_still (below : Below kernel.store store) : Hangs call store kernel := ⟨store, .stop _ _, below⟩

theorem replies_fault {code : Errno} (below : Below last.store store) (same : last.table = kernel.table) (present : Present kernel last)
    (faulty : Faulty code) : Replies kernel call store (.error code) last :=
  ⟨store, .fail (.before call store code faulty) (.done _ _), below, same, present⟩

theorem fails_still {code : Errno} (below : Below kernel.store store) (faulty : Faulty code) :
    Hangs call store kernel ∧ Replies kernel call store (.error code) kernel :=
  ⟨hangs_still below, replies_fault below rfl (fun _ found => found) faulty⟩

theorem exec_served {reply : Reply call} {after : Store} (served : serve call store = (reply, after)) :
    Exec device (.ask call .done) store (some reply) after := by
  have reply' := congrArg Prod.fst served
  have after' := congrArg Prod.snd served
  simp only at reply' after'
  refine .serve ?_
  change Exec device (.done (serve call store).1) (serve call store).2 (some reply) after
  rw [reply', after']
  exact .done _ _

theorem serves {reply : Reply call} {after : Store} (served : serve call store = (reply, after)) (below : Below last.store after)
    (same : last.table = kernel.table) (present : Present kernel last) :
    Hangs call store last ∧ Replies kernel call store reply last := by
  have execution := exec_served served
  exact ⟨⟨after, exec_stopped device execution, below⟩, after, execution, below, same, present⟩

theorem serves_still {reply : Reply call} (served : serve call store = (reply, store)) (below : Below kernel.store store) :
    Hangs call store kernel ∧ Replies kernel call store reply kernel := serves served below rfl fun _ found => found

theorem reported_faulty {code : Transfers.Errno} (known : code ≠ .enoent ∧ code ≠ .eexist) : Faulty (reported code) := by
  cases code with
  | enoent => exact absurd rfl known.1
  | eexist => exact absurd rfl known.2
  | _ => exact ⟨nofun, nofun⟩

theorem errno_faulty {error : PosixError} (known : error ≠ .errno .enoent ∧ error ≠ .errno .eexist) : Faulty (errno error) := by
  cases error with
  | eintr => exact ⟨nofun, nofun⟩
  | errno code => exact reported_faulty ⟨fun same => known.1 (by rw [same]), fun same => known.2 (by rw [same])⟩

theorem reply_faulty {α : Type} {error : PosixError} (known : (.error error : Except PosixError α) ≠ .error (.errno .enoent) ∧
    (.error error : Except PosixError α) ≠ .error (.errno .eexist)) : Faulty (errno error) :=
  errno_faulty ⟨fun same => known.1 (by rw [same]), fun same => known.2 (by rw [same])⟩

/-- What a call that only looks comes to. -/
def Looked {State α : Type} (state : State) (holds : α → Prop) : Except Errno α → State → Prop
  | .ok value, last => last = state ∧ holds value
  | .error code, last => last = state ∧ Faulty code

theorem meets_look {Request : Type} {Reply : Request → Type} {State α β : Type} {step : State → Event Reply → State → Prop}
    {cut : State → Prop} {state : State} {first : Fallible Reply Errno β} {next : β → Fallible Reply Errno α} {holds : β → Prop}
    {post : Except Errno α → State → Prop} (front : Meets step cut (Looked state holds) first state)
    (good : ∀ value, holds value → Meets step cut post (next value) state)
    (bad : ∀ code, Faulty code → cut state ∧ post (.error code) state) :
    Meets step cut post (first >>= next : Fallible Reply Errno α) state := by
  refine meets_proceed front ?_ ?_
  · rintro value middle ⟨rfl, here⟩
    exact good value here
  · rintro code middle ⟨rfl, faulty⟩
    exact bad code faulty

theorem looks_retry {cut : Kernel → Prop} {call : SysCall} {holds : call.Answer → Prop} (kept : cut kernel)
    (good : ∀ answer last, Step path kernel ⟨call, .ok answer⟩ last → last = kernel ∧ holds answer)
    (bad : ∀ error last, Step path kernel ⟨call, .error error⟩ last → last = kernel ∧ Faulty (errno error)) (fuel : Nat) :
    Meets (Step path) cut (Looked kernel holds) (Sys.retry call fuel) kernel := by
  refine meets_retry (fun state => state = kernel) rfl (fun _ same => same ▸ kept) ?_ ?_ fuel
  · rintro _ answer last rfl step
    obtain ⟨rfl, here⟩ := good answer last step
    exact ⟨kept, rfl, here⟩
  · rintro _ error last rfl step
    obtain ⟨rfl, faulty⟩ := bad error last step
    exact ⟨rfl, fun code same => ⟨rfl, by rw [same] at faulty; exact faulty⟩⟩

theorem looks_once {cut : Kernel → Prop} {call : SysCall} {holds : call.Answer → Prop} (kept : cut kernel)
    (good : ∀ answer last, Step path kernel ⟨call, .ok answer⟩ last → last = kernel ∧ holds answer)
    (bad : ∀ error last, Step path kernel ⟨call, .error error⟩ last → last = kernel ∧ Faulty (errno error)) :
    Meets (Step path) cut (Looked kernel holds) (Sys.once call) kernel := by
  refine meets_once kept ?_ ?_
  · intro answer last step
    obtain ⟨rfl, here⟩ := good answer last step
    exact ⟨kept, rfl, here⟩
  · intro error last step
    obtain ⟨rfl, faulty⟩ := bad error last step
    exact ⟨kept, rfl, faulty⟩

theorem meets_served {reply : call.Answer} (here : Hangs call store last ∧ Replies kernel call store (.ok reply) last) :
    Meets (Step path) (Hangs call store) (Replies kernel call store) (pure reply : Sys call.Answer) last := meets_give here.1 here.2

theorem stat_looks {answer : Stat} (held : kernel.table fd = some (.file file)) (step : Step path kernel ⟨.fstat fd, .ok answer⟩ last) :
    last = kernel ∧ (0 ≤ answer.size → answer.size = (kernel.store.content file).length) := by
  cases step with
  | looked looks => exact looks.elim
  | stat found sized =>
      cases held.symm.trans found
      exact ⟨rfl, sized⟩

theorem failed_looks {call : SysCall} {error : PosixError} (looks : match call with
      | .open _ _ | .close _ | .ftruncate _ _ | .fdatasync _ => False
      | _ => True) (step : Step path kernel ⟨call, .error error⟩ last) : last = kernel ∧ Faulty (errno error) := by
  cases step with
  | failed harmless known => exact ⟨rfl, errno_faulty known⟩
  | unopened | truncated | synced | closed => exact looks.elim

end Relating

section Requests
variable {path : File → Bytes} {handles : Handles} {kernel last : Kernel} {store : Store} {file : File} {handle : TimeliteFile}
  {fuel ssizeMax : Nat}

theorem size_replies (below : Below kernel.store store) (held : 0 ≤ handle.fd → kernel.table handle.fd = some (.file file)) :
    Meets (Step path) (Hangs (.size file) store) (Replies kernel (.size file) store) (fileSize fuel handle) kernel := by
  refine meets_require (fun valid => ?_) fun _ => fails_still below ⟨nofun, nofun⟩
  refine meets_look (looks_retry (hangs_still below) (fun answer last => stat_looks (held valid))
    (fun error last => failed_looks trivial) fuel) (fun info sized => ?_) fun _ => fails_still below
  refine meets_require (fun wide => ?_) fun _ => fails_still below ⟨nofun, nofun⟩
  refine meets_served (serves_still ?_ below)
  rw [sized wide, below.content file]
  rfl

theorem lock_replies (below : Below kernel.store store) :
    Meets (Step path) (Hangs (.lock file) store) (Replies kernel (.lock file) store) (fileLock handle) kernel := by
  refine meets_require (fun valid => ?_) fun _ => fails_still below ⟨nofun, nofun⟩
  have locking : Meets (Step path) (Hangs (.lock file) store) (Looked kernel fun _ => True) (Sys.once (.flock handle.fd)) kernel := by
    refine looks_once (hangs_still below) ?_ fun error last => failed_looks trivial
    intro answer last step
    cases step
    exact ⟨rfl, trivial⟩
  refine meets_examine locking fun result middle here => ?_
  cases result with
  | ok answer =>
      obtain ⟨rfl, _⟩ := here
      exact meets_served (serves_still rfl below)
  | error code =>
      obtain ⟨rfl, faulty⟩ := here
      have failed := @fails_still _ store (.lock file) (if code = ewouldblock then .ebusy else code) below (by
        split
        · exact ⟨nofun, nofun⟩
        · exact faulty)
      exact meets_fail failed.1 failed.2

theorem identity_replies (below : Below kernel.store store) :
    Meets (Step path) (Hangs .identity store) (Replies kernel .identity store) (fileIdentity fuel) kernel := by
  have random : Meets (Step path) (Hangs .identity store) (Looked kernel fun bytes => bytes.length = 16 → bytes = kernel.store.entropy)
      (Sys.retry (.getrandom 16) fuel) kernel := by
    refine @looks_retry path kernel _ (.getrandom 16) _ (hangs_still below) ?_ (fun error last => failed_looks trivial) fuel
    intro answer last step
    cases step with
    | looked looks => exact looks.elim
    | random whole => exact ⟨rfl, whole⟩
  refine meets_look random (fun bytes whole => ?_) fun _ => fails_still below
  refine meets_require (fun wide => ?_) fun _ => fails_still below ⟨nofun, nofun⟩
  refine meets_served (serves_still ?_ below)
  rw [whole wide, below.entropy]
  rfl

/-- What the read loop returns. -/
def Fetched (kernel : Kernel) (store : Store) (file : File) (offset length : Nat) : Except Transfers.Errno Unit × Bytes → Kernel → Prop
  | (.ok (), bytes), last => last = kernel ∧ serve (.read file offset length) store = (.ok bytes, store)
  | (.error code, _), last => last = kernel ∧ Faulty (reported code)

-- The error of a transfer that is not begun.
theorem refused_faulty {opened : Bool} {offset length : Nat} {error : Transfers.Errno}
    (refused : checkTransfer opened offset length = .error error) : Faulty (reported error) := by
  unfold checkTransfer at refused
  split at refused
  · cases refused
    exact ⟨nofun, nofun⟩
  split at refused
  · cases refused
    exact ⟨nofun, nofun⟩
  · cases refused

theorem accepted_valid {fd : Int} {offset length : Nat} (accepted : checkTransfer (decide (0 ≤ fd)) offset length = .ok ()) : 0 ≤ fd := by
  by_contra other
  simp only [checkTransfer, other, decide_false, if_true] at accepted
  cases accepted

theorem read_replies {offset length : Nat} (below : Below kernel.store store)
    (held : 0 ≤ handle.fd → kernel.table handle.fd = some (.file file)) :
    Meets (Step path) (Hangs (.read file offset length) store) (Replies kernel (.read file offset length) store)
      (fileRead fuel ssizeMax handle offset length) kernel := by
  have same := below.content file
  have fails : ∀ {code}, Faulty code → Hangs (.read file offset length) store kernel ∧
      Replies kernel (.read file offset length) store (.error code) kernel := fails_still below
  unfold fileRead posixRead
  cases accepted : checkTransfer (decide (0 ≤ handle.fd)) offset length with
  | error error =>
      have failed := fails (refused_faulty accepted)
      exact meets_fail failed.1 failed.2
  | ok _ =>
      have valid := accepted_valid accepted
      refine @meets_bind _ _ _ _ _ _ _ _ (Fetched kernel store file offset length) _ _ _ (meets_descriptor (meets_loop
        (fun state bytes => state = kernel ∧ ReadFrom (kernel.store.content file) offset length bytes)
        (fun state bytes here => by rw [here.1]; exact hangs_still below) ?_ ?_ ⟨rfl, read_start⟩ fuel)) ?_
      · rintro state bytes reply next ⟨rfl, read⟩ more step
        cases reply with
        | error error =>
            obtain ⟨rfl, faulty⟩ := failed_looks trivial step
            cases error with
            | eintr => exact ⟨rfl, read⟩
            | errno code => exact ⟨hangs_still below, rfl, faulty⟩
        | ok data =>
            cases step with
            | looked looks => exact looks.elim
            | @read _ _ found _ most held' asked ended =>
                cases (held valid).symm.trans held'
                by_cases none : (readAt (state.store.content file) (offset + bytes.length) most).length = 0
                · simp only [if_pos none]
                  refine ⟨hangs_still below, rfl, ?_⟩
                  rw [same] at read ended none
                  exact Transfers.delivered_serves ⟨fun _ _ => read_ended read (ended none), read.1, read.2, rfl⟩
                · simp only [if_neg none]
                  exact ⟨trivial, read_more read asked⟩
      · rintro state bytes ⟨rfl, read⟩ full
        have within := read.1
        have available := read.available
        refine ⟨rfl, Transfers.delivered_serves ⟨fun _ _ => ?_, within, by rw [← same]; exact read.2, rfl⟩⟩
        rw [← same]
        omega
      · rintro ⟨result, bytes⟩ middle here
        cases result with
        | error code =>
            obtain ⟨rfl, faulty⟩ := here
            exact meets_fail (fails faulty).1 (fails faulty).2
        | ok _ =>
            obtain ⟨rfl, served⟩ := here
            exact meets_served (serves_still served below)

/-- The cache while a write of the file goes on. -/
def Writing (kernel : Kernel) (store : Store) (file : File) (offset : Nat) (buffer : Bytes) (state : Kernel) (count : Nat) : Prop :=
  ∃ disk, state = ⟨kernel.store.put file disk, kernel.table⟩ ∧ Partly file offset buffer (store.disk file) disk count

/-- What the write loop returns. -/
def Wrote (kernel : Kernel) (store : Store) (file : File) (offset : Nat) (buffer : Bytes) :
    Except Transfers.Errno Unit × Nat → Kernel → Prop
  | (result, count), last => Writing kernel store file offset buffer last count ∧ (result = .ok () → count = buffer.length)

theorem Writing.below {offset count : Nat} {buffer : Bytes} {state : Kernel} (below : Below kernel.store store)
    (writing : Writing kernel store file offset buffer state count) :
    Below state.store (store.update file (.write offset (buffer.take count))) := by
  obtain ⟨disk, rfl, partly⟩ := writing
  exact below.put partly.update.1 partly.update.2

theorem writing_more {disk : Disk} {offset count more start : Nat} {buffer bytes : Bytes}
    (partly : Partly file offset buffer (store.disk file) (disk.update (.write start bytes)) (count + more)) :
    Writing kernel store file offset buffer ⟨(kernel.store.put file disk).update file (.write start bytes), kernel.table⟩ (count + more) := by
  refine ⟨_, ?_, partly⟩
  rw [Store.update, put_put, Store.disk, put_found, Option.getD_some]

theorem writing_cut {offset count : Nat} {buffer : Bytes} {state : Kernel}
    (writing : Writing kernel store file offset buffer state count) : (tearing file).allows (store.content file) offset buffer count := by
  obtain ⟨disk, rfl, partly⟩ := writing
  exact partly.cut

theorem write_replies {offset : Nat} {buffer : Bytes} (below : Below kernel.store store) (large : 64 ≤ ssizeMax)
    (held : 0 ≤ handle.fd → kernel.table handle.fd = some (.file file))
    (present : 0 ≤ handle.fd → (kernel.store.disk? file).isSome = true) :
    Meets (Step path) (Hangs (.write file offset buffer) store) (Replies kernel (.write file offset buffer) store)
      (fileWrite fuel ssizeMax handle offset buffer) kernel := by
  unfold fileWrite posixWrite
  cases accepted : checkTransfer (decide (0 ≤ handle.fd)) offset buffer.length with
  | error error =>
      have failed := @fails_still _ store (.write file offset buffer) _ below (refused_faulty accepted)
      exact meets_fail failed.1 failed.2
  | ok _ =>
      have valid := accepted_valid accepted
      have start : Writing kernel store file offset buffer kernel 0 := by
        refine ⟨kernel.store.disk file, by rw [put_disk (present valid)], partly_start (below.content file) (below.survives file)⟩
      have hangs : ∀ state count, Writing kernel store file offset buffer state count → Hangs (.write file offset buffer) store state :=
        fun state count writing => ⟨_, .fail (.write file offset buffer count store .eio (writing_cut writing)) (.stop _ _), writing.below below⟩
      refine @meets_bind _ _ _ _ _ _ _ _ (Wrote kernel store file offset buffer) _ _ _ (meets_descriptor (meets_loop
        (Writing kernel store file offset buffer) hangs ?_ ?_ start fuel)) ?_
      · intro state count reply next writing more step
        obtain ⟨disk, rfl, partly⟩ := writing
        cases reply with
        | error error =>
            obtain ⟨rfl, faulty⟩ := failed_looks trivial step
            cases error with
            | eintr => exact ⟨disk, rfl, partly⟩
            | errno code => exact ⟨hangs _ _ ⟨disk, rfl, partly⟩, ⟨disk, rfl, partly⟩, fun done => (by cases done)⟩
        | ok moved =>
            cases step with
            | looked looks => exact looks.elim
            | wrote held' asked cut =>
                cases (held valid).symm.trans held'
                have content : Store.content (kernel.store.put file disk) file = disk.content := by
                  simp only [Store.content, Store.disk, put_found, Option.getD_some]
                rw [content] at cut
                have further := @writing_more kernel store file _ _ _ _ _ _ _ (partly_more partly large asked cut)
                by_cases none : moved = 0
                · simp only [if_pos none]
                  subst none
                  exact ⟨hangs _ _ further, further, fun done => (by cases done)⟩
                · simp only [if_neg none]
                  exact further
      · intro state count writing full
        refine ⟨writing, fun _ => ?_⟩
        obtain ⟨disk, rfl, partly⟩ := writing
        exact Nat.le_antisymm partly.written.1 (Nat.le_of_not_lt full)
      · rintro ⟨result, count⟩ middle ⟨writing, whole⟩
        have below' := writing.below below
        have cut := writing_cut writing
        obtain ⟨disk, rfl, partly⟩ := writing
        cases result with
        | error code =>
            exact meets_fail (hangs _ _ ⟨disk, rfl, partly⟩) ⟨_, .fail (.write file offset buffer count store (reported code) cut) (.done _ _),
              below', rfl, present_put⟩
        | ok _ =>
            cases whole rfl
            rw [List.take_length] at below'
            exact meets_served (serves rfl below' rfl present_put)

theorem Present.of_put {disk : Disk} {table : Int → Option Descriptor} {state : Kernel} (present : Present kernel state) :
    Present kernel ⟨state.store.put file disk, table⟩ := present.trans present_put

theorem truncate_replies {size : Nat} (below : Below kernel.store store) (held : 0 ≤ handle.fd → kernel.table handle.fd = some (.file file)) :
    Meets (Step path) (Hangs (.truncate file size) store) (Replies kernel (.truncate file size) store) (fileTruncate fuel handle size) kernel := by
  refine meets_require (fun valid => ?_) fun _ => fails_still below ⟨nofun, nofun⟩
  refine meets_require (fun narrow => ?_) fun _ => fails_still below ⟨nofun, nofun⟩
  -- An attempt that is interrupted may have had its effect.
  refine @meets_retry _ _ _ _ (.ftruncate handle.fd size) _ (fun state => state.table = kernel.table ∧ Present kernel state ∧
    (Below state.store store ∨ Below state.store (store.update file (.truncate size)))) ⟨rfl, fun _ found => found, .inl below⟩ ?_ ?_ ?_ fuel
  · rintro state ⟨-, -, before | after⟩
    · exact hangs_still before
    · exact ⟨_, .fail (.truncate file size store .eio) (.stop _ _), after⟩
  · rintro state answer next ⟨same, present, either⟩ step
    cases step with
    | looked looks => exact looks.elim
    | truncated held' known =>
        rw [same] at held'
        cases (held valid).symm.trans held'
        have after : Below (state.store.update file (.truncate size)) (store.update file (.truncate size)) := by
          rcases either with before | after
          · exact before.truncate
          · exact after.again
        exact serves rfl after same present.of_put
  · rintro state error next ⟨same, present, either⟩ step
    have both : next.table = kernel.table ∧ Present kernel next ∧ Faulty (errno error) ∧
        (Below next.store store ∨ Below next.store (store.update file (.truncate size))) := by
      cases step with
      | failed harmless known => exact ⟨same, present, errno_faulty known, either⟩
      | truncated held' known =>
          rw [same] at held'
          cases (held valid).symm.trans held'
          refine ⟨same, present.of_put, reply_faulty known, .inr ?_⟩
          rcases either with before | after
          · exact before.truncate
          · exact after.again
    obtain ⟨same', present', faulty, either'⟩ := both
    refine ⟨⟨same', present', either'⟩, fun code found => ?_⟩
    rw [found] at faulty
    rcases either' with before | after
    · exact replies_fault before same' present' faulty
    · exact ⟨_, .fail (.truncate file size store (reported code)) (.done _ _), after, same', present'⟩

/-- What a sync leaves, of whatever request it is a part. -/
def Synced (kernel : Kernel) (store : Store) (file : File) : Except Errno Unit → Kernel → Prop
  | .ok (), last => Below last.store (store.sync file) ∧ last.table = kernel.table ∧ Present kernel last
  | .error code, last => Below last.store store ∧ last.table = kernel.table ∧ Present kernel last ∧ Faulty code

theorem sync_meets {cut : Kernel → Prop} (below : Below kernel.store store) (hangs : ∀ state, Below state.store store → cut state)
    (done : ∀ state, Below state.store (store.sync file) → cut state)
    (held : 0 ≤ handle.fd → kernel.table handle.fd = some (.file file))
    (present : 0 ≤ handle.fd → (kernel.store.disk? file).isSome = true) :
    Meets (Step path) cut (Synced kernel store file) (fileSync fuel handle) kernel := by
  refine meets_require (fun valid => ?_) fun _ => ⟨hangs _ below, below, rfl, fun _ found => found, nofun, nofun⟩
  refine @meets_retry _ _ _ _ (.fdatasync handle.fd) _ (fun state => state.table = kernel.table ∧ Present kernel state ∧ Below state.store store)
    ⟨rfl, fun _ found => found, below⟩ (fun state here => hangs _ here.2.2) ?_ ?_ fuel
  · rintro state answer next ⟨same, present', before⟩ step
    cases step with
    | looked looks => exact looks.elim
    | synced held' known =>
        rw [same] at held'
        cases (held valid).symm.trans held'
        exact ⟨done _ (before.sync file), before.sync file, same, present'.of_put⟩
  · rintro state error next ⟨same, present', before⟩ step
    cases step with
    | failed harmless known =>
        refine ⟨⟨same, present', before⟩, fun code found => ⟨before, same, present', ?_⟩⟩
        rw [found] at known
        exact errno_faulty known
    | synced held' known =>
        rw [same] at held'
        cases (held valid).symm.trans held'
        have after := before.synced (present' file (present valid))
        refine ⟨⟨same, present'.of_put, after⟩, fun code found => ⟨after, same, present'.of_put, ?_⟩⟩
        rw [found] at known
        exact reply_faulty known

theorem sync_replies (below : Below kernel.store store) (held : 0 ≤ handle.fd → kernel.table handle.fd = some (.file file))
    (present : 0 ≤ handle.fd → (kernel.store.disk? file).isSome = true) :
    Meets (Step path) (Hangs (.sync file) store) (Replies kernel (.sync file) store) (fileSync fuel handle) kernel := by
  refine meets_mono (@sync_meets _ _ _ _ _ _ (Hangs (.sync file) store) below (fun _ here => hangs_still here)
    (fun _ here => ⟨_, .serve (.stop _ _), here⟩) held present) (fun _ here => here) fun result last here => ?_
  cases result with
  | ok _ => exact (serves rfl here.1 here.2.1 here.2.2).2
  | error code => exact replies_fault here.1 here.2.1 here.2.2.1 here.2.2.2

/-- What the directory part of provisioning leaves. -/
def Provisioned (kernel : Kernel) (store : Store) (file : File) : Except Errno Unit → Kernel → Prop
  | .ok (), last => Below last.store (store.sync file) ∧ last.table = kernel.table ∧ Present kernel last
  | .error code, last =>
      (Below last.store store ∨ Below last.store (store.sync file)) ∧ last.table = kernel.table ∧ Present kernel last ∧ Faulty code

theorem answered_looks {call : SysCall} {answer : call.Answer} (looks : Looks call) (step : Step path kernel ⟨call, .ok answer⟩ last) :
    last = kernel ∧ True := by
  cases step with
  | looked => exact ⟨rfl, trivial⟩
  | opened | created | openedDirectory | stat | read | wrote | truncated | synced | random | closed => exact looks.elim

theorem provision_in {directory : Int} {name : Bytes} (below : Below kernel.store store)
    (held : 0 ≤ handle.fd → kernel.table handle.fd = some (.file file)) (valid : 0 ≤ handle.fd)
    (present : 0 ≤ handle.fd → (kernel.store.disk? file).isSome = true) :
    Meets (Step path) (Hangs (.provision file) store) (Provisioned kernel store file) (provisionIn fuel handle directory name) kernel := by
  have hangs : ∀ state, Below state.store store → Hangs (.provision file) store state := fun _ here => hangs_still here
  have done : ∀ state, Below state.store (store.sync file) → Hangs (.provision file) store state :=
    fun _ here => ⟨_, .serve (.stop _ _), here⟩
  have bad : ∀ code, Faulty code → Hangs (.provision file) store kernel ∧ Provisioned kernel store file (.error code) kernel :=
    fun code faulty => ⟨hangs _ below, .inl below, rfl, fun _ found => found, faulty⟩
  refine meets_look (looks_once (hangs _ below) (fun answer last => stat_looks (held valid)) fun error last => failed_looks trivial)
    (fun opened _ => ?_) bad
  refine meets_look (looks_once (hangs _ below) (fun answer last => answered_looks trivial) fun error last => failed_looks trivial)
    (fun named _ => ?_) bad
  refine meets_look (looks_once (hangs _ below) (fun answer last => answered_looks trivial) fun error last => failed_looks trivial)
    (fun filesystem _ => ?_) bad
  refine meets_require (fun _ => ?_) fun _ => bad _ ⟨nofun, nofun⟩
  refine meets_require (fun _ => ?_) fun _ => bad _ ⟨nofun, nofun⟩
  refine meets_proceed (sync_meets below hangs done held present) ?_ ?_
  · rintro _ middle ⟨after, same, present'⟩
    have worse : ∀ code, Faulty code → Hangs (.provision file) store middle ∧ Provisioned kernel store file (.error code) middle :=
      fun code faulty => ⟨done _ after, .inr after, same, present', faulty⟩
    refine meets_look (looks_retry (done _ after) (fun answer last => @answered_looks _ _ _ (.fsync directory) answer trivial)
      (fun error last => failed_looks trivial) fuel) (fun _ _ => ?_) worse
    refine meets_look (looks_once (done _ after) (fun answer last => answered_looks trivial) fun error last => failed_looks trivial)
      (fun again _ => ?_) worse
    unfold Fallible.require
    split
    · exact meets_give (done _ after) ⟨after, same, present'⟩
    · have failed := worse .einval ⟨nofun, nofun⟩
      exact meets_fail failed.1 failed.2
  · rintro code middle ⟨before, same, present', faulty⟩
    exact ⟨hangs _ before, .inl before, same, present', faulty⟩

/-- The directory is open. -/
def InDirectory (kernel : Kernel) : Except Errno Int → Kernel → Prop
  | .ok directory, last => kernel.table directory = none ∧ last = kernel.descriptor directory (some .directory)
  | .error code, last => last = kernel ∧ Faulty code

theorem directory_enters {cut : Kernel → Prop} {parent : Bytes} (kept : ∀ state, state.store = kernel.store → cut state) :
    Meets (Step path) cut (InDirectory kernel) (Sys.once (.openDirectory parent)) kernel := by
  refine @meets_once _ _ _ _ (.openDirectory parent) (InDirectory kernel) (kept _ rfl) ?_ ?_
  · intro directory last step
    cases step with
    | looked looks => exact looks.elim
    | openedDirectory fresh valid => exact ⟨kept _ rfl, fresh, rfl⟩
  · intro error last step
    obtain ⟨rfl, faulty⟩ := failed_looks trivial step
    exact ⟨kept _ rfl, rfl, faulty⟩

/-- The directory is closed whatever was found, and the first error returned. -/
theorem directory_leaves {directory : Int} {result : Except Errno Unit} {middle : Kernel} (fresh : kernel.table directory = none)
    (left : Provisioned (kernel.descriptor directory (some .directory)) store file result middle) :
    Meets (Step path) (Hangs (.provision file) store) (Replies kernel (.provision file) store) (closeDirectory directory result) middle := by
  have closes : ∀ {last : Kernel} {reply : SysReply (.close directory)}, Step path middle ⟨.close directory, reply⟩ last →
      last = middle.descriptor directory none ∧ ∀ error, reply = .error error → Faulty (errno error) := by
    intro last reply step
    cases step with
    | looked looks => exact looks.elim
    | failed harmless => exact harmless.elim
    | closed known =>
        refine ⟨rfl, fun error same => ?_⟩
        rw [same] at known
        exact reply_faulty known
  have table : middle.table = (kernel.descriptor directory (some .directory)).table →
      (middle.descriptor directory none).table = kernel.table := by
    intro same
    simp only [Kernel.descriptor] at same ⊢
    rw [same, Function.update_idem]
    exact (congrArg _ fresh.symm).trans (Function.update_eq_self _ _)
  have still : Hangs (.provision file) store middle := by
    cases result with
    | ok _ => exact ⟨_, .serve (.stop _ _), left.1⟩
    | error code =>
        rcases left.1 with before | after
        · exact hangs_still before
        · exact ⟨_, .serve (.stop _ _), after⟩
  refine meets_ask still fun reply last step => ?_
  obtain ⟨rfl, fails⟩ := closes step
  cases result with
  | error code =>
      obtain ⟨either, same, present, faulty⟩ := left
      refine meets_fail still ?_
      rcases either with before | after
      · exact replies_fault before (table same) present faulty
      · exact ⟨_, .fail (.provision file store code) (.done _ _), after, table same, present⟩
  | ok _ =>
      obtain ⟨after, same, present⟩ := left
      cases reply with
      | ok _ => exact meets_served (serves rfl after (table same) present)
      | error error => exact meets_fail still ⟨_, .fail (.provision file store (errno error)) (.done _ _), after, table same, present⟩

theorem provision_replies {name : Bytes} (below : Below kernel.store store)
    (held : 0 ≤ handle.fd → kernel.table handle.fd = some (.file file))
    (present : 0 ≤ handle.fd → (kernel.store.disk? file).isSome = true) :
    Meets (Step path) (Hangs (.provision file) store) (Replies kernel (.provision file) store) (fileProvision fuel handle name) kernel := by
  refine meets_require (fun valid => ?_) fun _ => fails_still below ⟨nofun, nofun⟩
  refine meets_require (fun _ => ?_) fun _ => fails_still below ⟨nofun, nofun⟩
  refine meets_proceed (directory_enters fun state same => hangs_still (by rw [same]; exact below)) ?_ ?_
  · rintro directory middle ⟨fresh, rfl⟩
    have other : handle.fd ≠ directory := fun same => by
      have found := held valid
      rw [same, fresh] at found
      cases found
    refine meets_examine (@provision_in _ (kernel.descriptor directory (some .directory)) _ _ _ _ _ _ below ?_ valid present) fun result last left =>
      directory_leaves fresh left
    intro valid
    exact (Function.update_of_ne other _ _).trans (held valid)
  · rintro code middle ⟨rfl, faulty⟩
    exact fails_still below faulty

end Requests

section Opening
variable {path : File → Bytes} {handles : Handles} {kernel last : Kernel} {store : Store} {file : File} {handle : TimeliteFile}
  {fuel : Nat} {exclusive : Bool} {fd : Int}

/-- The kernel in which the file is opened: an exclusive open makes it. -/
def entered (kernel : Kernel) (file : File) : Bool → Kernel
  | true => ⟨kernel.store.put file (settled []), kernel.table⟩
  | false => kernel

def Admits (kernel : Kernel) (file : File) : Bool → Prop
  | true => kernel.store.disk? file = none
  | false => (kernel.store.disk? file).isSome = true

def Entering (kernel : Kernel) (file : File) (exclusive : Bool) (state : Kernel) : Prop :=
  state.store = kernel.store ∨ Admits kernel file exclusive ∧ state.store = (entered kernel file exclusive).store

/-- An open file descriptor, or the error. -/
def Descends (kernel : Kernel) (file : File) (exclusive : Bool) : Except Errno Int → Kernel → Prop
  | .ok fd, last => 0 ≤ fd ∧ kernel.table fd = none ∧ Admits kernel file exclusive ∧
      last = (entered kernel file exclusive).descriptor fd (some (.file file))
  | .error code, last => last = kernel ∧ (code = .enoent → exclusive = false ∧ kernel.store.disk? file = none) ∧
      (code = .eexist → exclusive = true ∧ (kernel.store.disk? file).isSome = true)

/-- What `open_file` leaves. -/
def Entered (kernel : Kernel) (file : File) (exclusive : Bool) (before : TimeliteFile) : Except Errno TimeliteFile → Kernel → Prop
  | .ok handle, last => before.fd = -1 ∧ Descends kernel file exclusive (.ok handle.fd) last
  | .error code, last => Descends kernel file exclusive (.error code) last ∨
      last.table = kernel.table ∧ Entering kernel file exclusive last ∧ Faulty code

theorem entered_table : (entered kernel file exclusive).table = kernel.table := by
  cases exclusive <;> rfl

theorem open_descends (apart : path .database ≠ path .wal) :
    Meets (Step path) (Entering kernel file exclusive) (Descends kernel file exclusive) (Sys.retry (.open (path file) exclusive) fuel) kernel := by
  refine @meets_retry _ _ _ _ (.open (path file) exclusive) (Descends kernel file exclusive) (fun state => state = kernel) rfl
    (fun _ same => .inl (congrArg Kernel.store same)) ?_ ?_ fuel
  · rintro _ answer next rfl step
    cases step with
    | looked looks => exact looks.elim
    | opened named present fresh valid =>
        cases path_unique apart named
        exact ⟨.inl rfl, valid, fresh, present, rfl⟩
    | created named absent fresh valid =>
        cases path_unique apart named
        exact ⟨.inr ⟨absent, rfl⟩, valid, fresh, absent, rfl⟩
  · rintro _ error next rfl step
    cases step with
    | failed harmless => exact harmless.elim
    | unopened missing existing =>
        refine ⟨rfl, fun code same => ⟨rfl, fun found => (missing ?_).imp_right fun none => none file rfl,
          fun found => (existing ?_).imp_right fun some => some file rfl⟩⟩
        all_goals
          rw [same]
          cases code <;> first | rfl | cases found

theorem abandon_leaves {code : Errno} (faulty : Faulty code) (fresh : kernel.table fd = none)
    (table : last.table = Function.update kernel.table fd (some (.file file))) (entering : Entering kernel file exclusive last) :
    Meets (Step path) (Entering kernel file exclusive) (Entered kernel file exclusive handle) (abandon fd code : Sys TimeliteFile) last := by
  refine meets_ask entering fun reply next step => ?_
  have closes : next = last.descriptor fd none := by
    cases step with
    | looked looks => exact looks.elim
    | failed harmless => exact harmless.elim
    | closed => rfl
  have same : next.table = kernel.table := by
    rw [closes, Kernel.descriptor, table, Function.update_idem]
    exact (congrArg _ fresh.symm).trans (Function.update_eq_self _ _)
  have entering' : Entering kernel file exclusive next := by
    rw [closes]
    exact entering
  exact meets_fail entering' (.inr ⟨same, entering', faulty⟩)

theorem open_enters (apart : path .database ≠ path .wal) :
    Meets (Step path) (Entering kernel file exclusive) (Entered kernel file exclusive handle) (openFile fuel handle (path file) exclusive) kernel := by
  have bad : Entering kernel file exclusive kernel ∧ Entered kernel file exclusive handle (.error .einval) kernel :=
    ⟨.inl rfl, .inl ⟨rfl, nofun, nofun⟩⟩
  refine meets_require (fun _ => ?_) fun _ => bad
  refine meets_require (fun closed => ?_) fun _ => bad
  refine meets_proceed (open_descends apart) ?_ ?_
  · rintro fd middle ⟨valid, fresh, admits, rfl⟩
    have table : ((entered kernel file exclusive).descriptor fd (some (.file file))).table =
        Function.update kernel.table fd (some (.file file)) := congrArg (Function.update · fd _) entered_table
    have held : ((entered kernel file exclusive).descriptor fd (some (.file file))).table fd = some (.file file) := by
      rw [table, Function.update_self]
    have entering : Entering kernel file exclusive ((entered kernel file exclusive).descriptor fd (some (.file file))) := .inr ⟨admits, rfl⟩
    refine meets_examine (looks_retry entering (fun answer last => stat_looks held) (fun error last => failed_looks trivial) fuel) ?_
    intro result last here
    cases result with
    | ok info =>
        obtain ⟨rfl, _⟩ := here
        by_cases regular : info.regular = true
        · simp only [if_pos regular]
          exact meets_give entering ⟨closed, valid, fresh, admits, rfl⟩
        · simp only [if_neg regular]
          exact abandon_leaves ⟨nofun, nofun⟩ fresh table entering
    | error code =>
        obtain ⟨rfl, faulty⟩ := here
        exact abandon_leaves faulty fresh table entering
  · rintro code middle here
    obtain ⟨rfl, told⟩ := here
    exact ⟨.inl rfl, .inl ⟨rfl, told⟩⟩

end Opening

section Realizing
variable {config : Config} {handles : Handles} {kernel last : Kernel} {store : Store} {file : File} {call : Call} {α : Type}
  {program : Prog Reply α}

theorem held_same (held : Held handles kernel) (table : last.table = kernel.table) (present : Present kernel last) : Held handles last := by
  refine ⟨fun fd descriptor => ?_, fun file valid => present file (held.present file valid)⟩
  rw [table]
  exact held.table fd descriptor

/-- A request that keeps the handles. -/
theorem keeping_realizes {sys : Sys call.Answer} (held : Held handles kernel)
    (replies : Meets (Step config.path) (Hangs call store) (Replies kernel call store) sys kernel) :
    Realizes device (Step config.path) related (.ask call .done) store (keeping handles sys) kernel := by
  refine meets_bind (meets_mono replies (fun _ hangs => hangs) fun _ _ here => here) ?_
  rintro reply middle ⟨after, execution, below, table, present⟩
  exact meets_done ⟨after, exec_stopped device execution, below⟩ ⟨after, execution, below, held_same held table present⟩

theorem held_opened {fd : Int} (held : Held handles kernel) (closed : (handles file).fd < 0) (fresh : kernel.table fd = none) (valid : 0 ≤ fd)
    {opened : Kernel} (table : opened.table = Function.update kernel.table fd (some (.file file))) (present : Present kernel opened)
    (found : (opened.store.disk? file).isSome = true) : Held (Function.update handles file ⟨fd⟩) opened := by
  refine ⟨fun other descriptor => ?_, fun other valid' => ?_⟩
  · rw [table]
    by_cases same : other = fd
    · subst same
      rw [Function.update_self]
      constructor
      · rintro ⟨⟩
        exact ⟨file, rfl, by rw [Function.update_self], valid⟩
      · rintro ⟨other, rfl, sits, _⟩
        by_cases which : other = file
        · rw [which]
        · rw [Function.update_of_ne which] at sits
          have taken := held.descriptor (by rw [sits]; exact valid)
          rw [sits, fresh] at taken
          cases taken
    · rw [Function.update_of_ne same, held.table]
      constructor
      · rintro ⟨another, rfl, sits, valid'⟩
        refine ⟨another, rfl, ?_, valid'⟩
        rwa [Function.update_of_ne fun which => by rw [which] at sits; omega]
      · rintro ⟨another, rfl, sits, valid'⟩
        refine ⟨another, rfl, ?_, valid'⟩
        rwa [Function.update_of_ne fun which => same (by rw [which, Function.update_self] at sits; exact sits.symm)] at sits
  · by_cases which : other = file
    · rw [which]
      exact found
    · rw [Function.update_of_ne which] at valid'
      exact present other (held.present other valid')

theorem held_closed (held : Held handles kernel) (valid : 0 ≤ (handles file).fd) :
    Held (Function.update handles file .closed) (kernel.descriptor (handles file).fd none) := by
  refine ⟨fun other descriptor => ?_, fun other valid' => ?_⟩
  · by_cases same : other = (handles file).fd
    · subst same
      simp only [Kernel.descriptor, Function.update_self]
      refine ⟨nofun, ?_⟩
      rintro ⟨another, rfl, sits, valid'⟩
      by_cases which : another = file
      · rw [which, Function.update_self] at sits
        rw [← sits] at valid
        exact absurd valid closed_below
      · rw [Function.update_of_ne which] at sits
        have first := held.descriptor valid
        have second := @Held.descriptor _ _ another held (by rw [sits]; exact valid)
        rw [sits, first] at second
        cases second
        exact absurd rfl which
    · simp only [Kernel.descriptor, Function.update_of_ne same, held.table]
      constructor
      · rintro ⟨another, rfl, sits, valid'⟩
        refine ⟨another, rfl, ?_, valid'⟩
        rwa [Function.update_of_ne fun which => same (by rw [← sits, which])]
      · rintro ⟨another, rfl, sits, valid'⟩
        refine ⟨another, rfl, ?_, valid'⟩
        by_cases which : another = file
        · rw [which, Function.update_self] at sits
          rw [← sits] at valid'
          exact absurd valid' closed_below
        · rwa [Function.update_of_ne which] at sits
  · by_cases which : other = file
    · rw [which, Function.update_self] at valid'
      exact absurd valid' closed_below
    · rw [Function.update_of_ne which] at valid'
      exact held.present other valid'

theorem absent_iff (below : Below kernel.store store) : kernel.store.disk? file = none ↔ store.disk? file = none := by
  have same := below.present file
  rw [← Option.not_isSome_iff_eq_none, ← Option.not_isSome_iff_eq_none, same]

/-- The handles after an open: changed where it returned 0. -/
def adopted (handles : Handles) (file : File) : Except Errno TimeliteFile → Handles
  | .ok handle => Function.update handles file handle
  | .error _ => handles

/-- What an open has come to in the backend, on any platform. -/
def Adopts (call : Call) (store : Store) (handles : Handles) (file : File) (result : Except Errno TimeliteFile) (reply : Reply call)
    (last : Kernel) : Prop :=
  ∃ after, Exec device (.ask call .done) store (some reply) after ∧ Below last.store after ∧ Held (adopted handles file result) last

-- The reply of an open or a create.
def told : Except Errno TimeliteFile → Except Errno Unit
  | .ok _ => .ok ()
  | .error code => .error code

theorem entering_opens (below : Below kernel.store store) (entering : Entering kernel file false last) : Hangs (.open file) store last := by
  refine ⟨store, .stop _ _, ?_⟩
  rcases entering with same | ⟨_, same⟩
  all_goals
    rw [same]
    exact below

theorem entered_opens {result : Except Errno TimeliteFile} (below : Below kernel.store store) (held : Held handles kernel)
    (entered : Entered kernel file false (handles file) result last) :
    Adopts (.open file) store handles file result (told result) last := by
  cases result with
  | ok handle =>
      obtain ⟨closed, valid, fresh, admits, rfl⟩ := entered
      have found : (store.disk? file).isSome = true := by
        rw [← below.present]
        exact admits
      refine ⟨store, exec_served (if_pos found), below, ?_⟩
      exact held_opened held (by rw [closed]; decide) fresh valid rfl (fun _ present => present) admits
  | error code =>
      rcases entered with ⟨rfl, missing, existing⟩ | ⟨table, entering, faulty⟩
      · by_cases absent : code = .enoent
        · have none := (absent_iff below).mp (missing absent).2
          refine ⟨store, exec_served ?_, below, held⟩
          rw [absent]
          exact if_neg (by rw [none]; exact nofun)
        · have faulty : Faulty code := ⟨absent, fun found => by cases (existing found).1⟩
          exact ⟨store, .fail (.before _ store code faulty) (.done _ _), below, held⟩
      · have same : last.store = kernel.store := by
          rcases entering with same | ⟨_, same⟩
          · exact same
          · exact same
        refine ⟨store, .fail (.before _ store code faulty) (.done _ _), by rw [same]; exact below, held_same held table ?_⟩
        intro other found
        rw [same]
        exact found

/-- A file that is made. -/
theorem Below.made (below : Below kernel.store store) : Below (kernel.store.put file (settled [])) (store.put file (settled [])) :=
  below.put rfl fun image survives => by rw [survives_settled survives]; exact survives_content (settled [])

theorem creates_absent (below : Below kernel.store store) (absent : kernel.store.disk? file = none) :
    Exec device (.ask (.create file) .done) store (some (.ok ())) (store.put file (settled [])) := by
  refine exec_served (if_neg ?_)
  rw [(absent_iff below).mp absent]
  exact nofun

theorem entering_creates (below : Below kernel.store store) (entering : Entering kernel file true last) :
    Hangs (.create file) store last := by
  rcases entering with same | ⟨absent, same⟩
  · exact ⟨store, .stop _ _, by rw [same]; exact below⟩
  · exact ⟨_, exec_stopped device (creates_absent below absent), by rw [same]; exact Below.made below⟩

theorem entered_creates {result : Except Errno TimeliteFile} (below : Below kernel.store store) (held : Held handles kernel)
    (entered : Entered kernel file true (handles file) result last) :
    Adopts (.create file) store handles file result (told result) last := by
  cases result with
  | ok handle =>
      obtain ⟨closed, valid, fresh, absent, rfl⟩ := entered
      refine ⟨_, creates_absent below absent, Below.made below, ?_⟩
      refine held_opened held (by rw [closed]; decide) fresh valid rfl ?_ (congrArg Option.isSome (put_found _ _ _))
      exact @present_put kernel file (settled []) _
  | error code =>
      rcases entered with ⟨rfl, missing, existing⟩ | ⟨table, entering, faulty⟩
      · by_cases present : code = .eexist
        · have found : (store.disk? file).isSome = true := by
            rw [← below.present]
            exact (existing present).2
          refine ⟨store, exec_served ?_, below, held⟩
          rw [present]
          exact if_pos found
        · have faulty : Faulty code := ⟨fun found => (by cases (missing found).1), present⟩
          exact ⟨store, .fail (.before _ store code faulty) (.done _ _), below, held⟩
      · rcases entering with same | ⟨absent, same⟩
        · refine ⟨store, .fail (.before _ store code faulty) (.done _ _), by rw [same]; exact below, held_same held table ?_⟩
          intro other found
          rw [same]
          exact found
        · have failed : Exec device (.ask (.create file) .done) store (some (.error code)) (store.put file (settled [])) :=
            .fail (.create file store code ((absent_iff below).mp absent) faulty.2) (.done _ _)
          refine ⟨_, failed, by rw [same]; exact Below.made below, held_same held table ?_⟩
          intro other found
          rw [same]
          exact @present_put kernel file (settled []) kernel.table other found

theorem Adopts.hangs {call : Call} {result : Except Errno TimeliteFile} {reply : Reply call}
    (adopts : Adopts call store handles file result reply last) : Hangs call store last := by
  obtain ⟨after, execution, below, _⟩ := adopts
  exact ⟨after, exec_stopped device execution, below⟩

theorem open_realizes (apart : config.path .database ≠ config.path .wal) (below : Below kernel.store store) (held : Held handles kernel) :
    Realizes device (Step config.path) related (.ask (.open file) .done) store (implement config (.open file) handles) kernel := by
  refine meets_bind (meets_mono (open_enters apart) (fun _ => entering_opens below) fun _ _ here => here) fun result last here => ?_
  have adopts := entered_opens below held here
  cases result <;> exact meets_done adopts.hangs adopts

theorem create_realizes (apart : config.path .database ≠ config.path .wal) (below : Below kernel.store store) (held : Held handles kernel) :
    Realizes device (Step config.path) related (.ask (.create file) .done) store (implement config (.create file) handles) kernel := by
  refine meets_bind (meets_mono (open_enters apart) (fun _ => entering_creates below) fun _ _ here => here) fun result last here => ?_
  have adopts := entered_creates below held here
  cases result <;> exact meets_done adopts.hangs adopts

-- A close does nothing to the files, whatever it returns.
theorem exec_close {reply : Reply (.close file)} (faulty : ∀ code, reply = .error code → Faulty code) :
    Exec device (.ask (.close file) .done) store (some reply) store := by
  cases reply with
  | ok _ => exact exec_served rfl
  | error code => exact .fail (.before _ store code (faulty code rfl)) (.done _ _)

theorem close_realizes (below : Below kernel.store store) (held : Held handles kernel) :
    Realizes device (Step config.path) related (.ask (.close file) .done) store (implement config (.close file) handles) kernel := by
  change Meets _ _ _ (releasing handles file) kernel
  unfold releasing fileClose
  by_cases shut : (handles file).fd < 0
  · rw [if_pos shut]
    refine meets_done ⟨store, .stop _ _, below⟩ ⟨store, exec_close fun code same => by cases same; exact ⟨nofun, nofun⟩, below, ?_⟩
    rw [Function.update_eq_self]
    exact held
  · rw [if_neg shut]
    refine meets_ask ⟨store, .stop _ _, below⟩ fun reply last step => ?_
    have closes : last = kernel.descriptor (handles file).fd none ∧ ∀ error, reply = .error error → Faulty (errno error) := by
      cases step with
      | looked looks => exact looks.elim
      | failed harmless => exact harmless.elim
      | closed known =>
          refine ⟨rfl, fun error same => ?_⟩
          rw [same] at known
          exact reply_faulty known
    obtain ⟨rfl, fails⟩ := closes
    have held' := held_closed held (not_lt.mp shut)
    cases reply with
    | ok _ => exact meets_done ⟨store, .stop _ _, below⟩ ⟨store, exec_close nofun, below, held'⟩
    | error error =>
        refine meets_done ⟨store, .stop _ _, below⟩ ⟨store, exec_close fun code same => ?_, below, held'⟩
        cases same
        exact fails error rfl

/-- Each function of file_io.h does what the backend does for its request. -/
theorem implement_realizes (apart : config.path .database ≠ config.path .wal) (large : 64 ≤ config.ssizeMax)
    (start : related (some handles) kernel store) :
    Realizes device (Step config.path) related (.ask call .done) store (implement config call handles) kernel := by
  obtain ⟨below, held⟩ := start
  have descriptor : ∀ file, 0 ≤ (handles file).fd → kernel.table (handles file).fd = some (.file file) := fun _ valid => held.descriptor valid
  cases call with
  | «open» file => exact open_realizes apart below held
  | create file => exact create_realizes apart below held
  | lock file => exact keeping_realizes held (lock_replies below)
  | identity => exact keeping_realizes held (identity_replies below)
  | read file offset length => exact keeping_realizes held (read_replies below (descriptor file))
  | write file offset bytes => exact keeping_realizes held (write_replies below large (descriptor file) (held.present file))
  | size file => exact keeping_realizes held (size_replies below (descriptor file))
  | truncate file size => exact keeping_realizes held (truncate_replies below (descriptor file))
  | sync file => exact keeping_realizes held (sync_replies below (descriptor file) (held.present file))
  | provision file => exact keeping_realizes held (provision_replies below (descriptor file) (held.present file))
  | close file => exact close_realizes below held

/-- Every execution on the system calls is one of the backend. -/
theorem program_realizes (apart : config.path .database ≠ config.path .wal) (large : 64 ≤ config.ssizeMax)
    (start : related (some handles) kernel store) :
    Realizes device (Step config.path) related program store (lower (implement config) program handles) kernel :=
  lower_realizes (fun _ _ _ here => here.1) (fun _ _ _ _ here => implement_realizes apart large here) start

end Realizing

end Timelite.Grounding
