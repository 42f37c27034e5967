import Timelite.Discipline
import Timelite.BackendLaws

/-!
The transfer loops of file_io.c and file_io_windows.c under the native calls: a
positioned call in the one, a single seek and sequential calls in the other. A
loop is given a number of native calls to make at most, since an interrupted
call is repeated without end; pointer arguments are Lean values.
-/
namespace Timelite.Transfers
open ByteFile Program

def int64Max : Nat := 9223372036854775807

inductive Errno where
  | eacces | ebadf | eexist | efbig | eilseq | einval | eio | emfile | enametoolong | enoent | enomem | enospc | enotsup
  | eoverflow
  | other (code : Nat)
  deriving DecidableEq, Repr

/-- The same in both backends. `opened` is what check_file asks of the handle. -/
def checkTransfer (opened : Bool) (offset length : Nat) : Except Errno Unit :=
  if opened = false then .error .ebadf
  else if offset > int64Max ∨ length > int64Max - offset then .error .eoverflow
  else .ok ()

-- The most that one native call is asked for.
def capped (limit remaining : Nat) : Nat := if remaining > limit then limit else remaining

/-- `while (*transferred < length)`: the four loops differ in their native call
and in how they react to its reply. `again` goes on from there, `leave` returns. -/
inductive Reaction (Progress : Type) where
  | again (progress : Progress)
  | leave (result : Except Errno Unit)

def transferLoop {Call Progress : Type} {Reply : Call → Type} (length : Nat) (transferred : Progress → Nat)
    (request : Progress → Call) (react : (progress : Progress) → Reply (request progress) → Reaction Progress) :
    (fuel : Nat) → Progress → Prog Reply (Option (Except Errno Unit × Progress))
  | 0, progress => .done (if transferred progress < length then none else some (.ok (), progress))
  | fuel + 1, progress =>
      if transferred progress < length then
        .ask (request progress) fun reply =>
          match react progress reply with
          | .again progress => transferLoop length transferred request react fuel progress
          | .leave result => .done (some (result, progress))
      else .done (some (.ok (), progress))

section Posix

inductive PosixError where
  | eintr
  | errno (code : Errno)
  deriving DecidableEq, Repr

inductive PosixCall where
  | pread (count offset : Nat)
  | pwrite (bytes : Bytes) (offset : Nat)
  deriving DecidableEq, Repr

abbrev PosixCall.Answer : PosixCall → Type
  | .pread _ _ => Bytes
  | .pwrite _ _ => Nat

abbrev PosixReply (call : PosixCall) : Type := Except PosixError call.Answer

-- `bytes` is what the buffer holds so far; `*transferred` is its length.
def posixReadLoop (ssizeMax offset length : Nat) : (fuel : Nat) → Bytes → Prog PosixReply (Option (Except Errno Unit × Bytes)) :=
  transferLoop length List.length
    (fun bytes => .pread (capped ssizeMax (length - bytes.length)) (offset + bytes.length)) fun bytes reply =>
      match reply with
      | .error .eintr => .again bytes
      | .error (.errno code) => .leave (.error code)
      | .ok data => if data.length = 0 then .leave (.ok ()) else .again (bytes ++ data)

def posixRead (opened : Bool) (ssizeMax offset length fuel : Nat) : Prog PosixReply (Option (Except Errno Unit × Bytes)) :=
  match checkTransfer opened offset length with
  | .error error => .done (some (.error error, []))
  | .ok () => posixReadLoop ssizeMax offset length fuel []

def posixWriteLoop (ssizeMax offset : Nat) (buffer : Bytes) :
    (fuel transferred : Nat) → Prog PosixReply (Option (Except Errno Unit × Nat)) :=
  transferLoop buffer.length id
    (fun transferred => .pwrite ((buffer.drop transferred).take (capped ssizeMax (buffer.length - transferred)))
      (offset + transferred)) fun transferred reply =>
      match reply with
      | .error .eintr => .again transferred
      | .error (.errno code) => .leave (.error code)
      | .ok count => if count = 0 then .leave (.error .eio) else .again (transferred + count)

def posixWrite (opened : Bool) (ssizeMax offset : Nat) (buffer : Bytes) (fuel : Nat) :
    Prog PosixReply (Option (Except Errno Unit × Nat)) :=
  match checkTransfer opened offset buffer.length with
  | .error error => .done (some (.error error, 0))
  | .ok () => posixWriteLoop ssizeMax offset buffer fuel 0

/-- What the native calls do to the bytes of a file. A call that fails moves
nothing; a read reports zero at the end of the file, or anywhere if `early`. -/
inductive PosixStep (early : Prop) : Bytes → Event PosixReply → Bytes → Prop where
  | read {content : Bytes} {count offset most : Nat} (asked : most ≤ count)
      (ended : (readAt content offset most).length = 0 → content.length ≤ offset ∨ early) :
      PosixStep early content ⟨.pread count offset, .ok (readAt content offset most)⟩ content
  | readFailed {content : Bytes} {count offset : Nat} (error : PosixError) :
      PosixStep early content ⟨.pread count offset, .error error⟩ content
  | write {content bytes : Bytes} {offset count : Nat} (asked : count ≤ bytes.length) :
      PosixStep early content ⟨.pwrite bytes offset, .ok count⟩ (writeAt content offset (bytes.take count))
  | writeFailed {content bytes : Bytes} {offset : Nat} (error : PosixError) :
      PosixStep early content ⟨.pwrite bytes offset, .error error⟩ content

end Posix

section Windows

inductive WindowsError where
  | fileNotFound | pathNotFound | fileExists | alreadyExists | accessDenied | sharingViolation | lockViolation | writeProtect
  | invalidHandle | invalidParameter | invalidName | badPathname | negativeSeek | arithmeticOverflow | fileTooLarge | diskFull
  | handleDiskFull | notEnoughMemory | outOfMemory | tooManyOpenFiles | filenameExceedsRange | insufficientBuffer
  | noUnicodeTranslation | notSupported | invalidFunction | handleEof
  | other (code : Nat)
  deriving DecidableEq, Repr

def windowsError : WindowsError → Errno
  | .fileNotFound | .pathNotFound => .enoent
  | .fileExists | .alreadyExists => .eexist
  | .accessDenied | .sharingViolation | .lockViolation | .writeProtect => .eacces
  | .invalidHandle => .ebadf
  | .invalidParameter | .invalidName | .badPathname | .negativeSeek => .einval
  | .arithmeticOverflow => .eoverflow
  | .fileTooLarge => .efbig
  | .diskFull | .handleDiskFull => .enospc
  | .notEnoughMemory | .outOfMemory => .enomem
  | .tooManyOpenFiles => .emfile
  | .filenameExceedsRange | .insufficientBuffer => .enametoolong
  | .noUnicodeTranslation => .eilseq
  | .notSupported | .invalidFunction => .enotsup
  | _ => .eio

inductive WindowsCall where
  | setFilePointerEx (offset : Nat)
  | readFile (count : Nat)
  | writeFile (bytes : Bytes)
  deriving DecidableEq, Repr

abbrev WindowsCall.Answer : WindowsCall → Type
  | .setFilePointerEx _ => Unit
  | .readFile _ => Bytes
  | .writeFile _ => Nat

abbrev WindowsReply (call : WindowsCall) : Type := Except WindowsError call.Answer

def windowsReadLoop (limit length : Nat) : (fuel : Nat) → Bytes → Prog WindowsReply (Option (Except Errno Unit × Bytes)) :=
  transferLoop length List.length (fun bytes => .readFile (capped limit (length - bytes.length))) fun bytes reply =>
    match reply with
    | .error error => .leave (if error = .handleEof then .ok () else .error (windowsError error))
    | .ok data => if data.length = 0 then .leave (.ok ()) else .again (bytes ++ data)

def windowsRead (opened : Bool) (limit offset length fuel : Nat) : Prog WindowsReply (Option (Except Errno Unit × Bytes)) :=
  match checkTransfer opened offset length with
  | .error error => .done (some (.error error, []))
  | .ok () =>
      if length = 0 then .done (some (.ok (), []))
      else .ask (.setFilePointerEx offset) fun
        | .error error => .done (some (.error (windowsError error), []))
        | .ok () => windowsReadLoop limit length fuel []

def windowsWriteLoop (limit : Nat) (buffer : Bytes) :
    (fuel transferred : Nat) → Prog WindowsReply (Option (Except Errno Unit × Nat)) :=
  transferLoop buffer.length id
    (fun transferred => .writeFile ((buffer.drop transferred).take (capped limit (buffer.length - transferred))))
    fun transferred reply =>
      match reply with
      | .error error => .leave (.error (windowsError error))
      | .ok count => if count = 0 then .leave (.error .eio) else .again (transferred + count)

def windowsWrite (opened : Bool) (limit offset : Nat) (buffer : Bytes) (fuel : Nat) :
    Prog WindowsReply (Option (Except Errno Unit × Nat)) :=
  match checkTransfer opened offset buffer.length with
  | .error error => .done (some (.error error, 0))
  | .ok () =>
      if buffer.length = 0 then .done (some (.ok (), 0))
      else .ask (.setFilePointerEx offset) fun
        | .error error => .done (some (.error (windowsError error), 0))
        | .ok () => windowsWriteLoop limit buffer fuel 0

structure WindowsFile where
  content : Bytes
  position : Nat
  deriving DecidableEq, Repr

/-- The same of the sequential calls. A failed one leaves the position anywhere;
the end of the file has two forms. -/
inductive WindowsStep (early : Prop) : WindowsFile → Event WindowsReply → WindowsFile → Prop where
  | seek {file : WindowsFile} {offset : Nat} : WindowsStep early file ⟨.setFilePointerEx offset, .ok ()⟩ ⟨file.content, offset⟩
  | seekFailed {file : WindowsFile} {offset : Nat} (error : WindowsError) (position : Nat) :
      WindowsStep early file ⟨.setFilePointerEx offset, .error error⟩ ⟨file.content, position⟩
  | read {file : WindowsFile} {count most : Nat} (asked : most ≤ count)
      (ended : (readAt file.content file.position most).length = 0 → file.content.length ≤ file.position ∨ early) :
      WindowsStep early file ⟨.readFile count, .ok (readAt file.content file.position most)⟩
        ⟨file.content, file.position + (readAt file.content file.position most).length⟩
  | readFailed {file : WindowsFile} {count : Nat} (error : WindowsError) (position : Nat)
      (ended : error = .handleEof → file.content.length ≤ file.position ∨ early) :
      WindowsStep early file ⟨.readFile count, .error error⟩ ⟨file.content, position⟩
  | write {file : WindowsFile} {bytes : Bytes} {count : Nat} (asked : count ≤ bytes.length) :
      WindowsStep early file ⟨.writeFile bytes, .ok count⟩
        ⟨writeAt file.content file.position (bytes.take count), file.position + count⟩
  | writeFailed {file : WindowsFile} {bytes : Bytes} (error : WindowsError) (position : Nat) :
      WindowsStep early file ⟨.writeFile bytes, .error error⟩ ⟨file.content, position⟩

end Windows

section Progress

/-- How far one native call gets: so many bytes, none at the end of a read
included, or an error. -/
inductive Turn where
  | moved (count : Nat)
  | failed (code : Errno)
  deriving DecidableEq, Repr

-- An interrupted call is no turn.
def posixTurn : Event PosixReply → Option Turn
  | ⟨.pread _ _, .ok data⟩ => some (.moved data.length)
  | ⟨.pwrite _ _, .ok count⟩ => some (.moved count)
  | ⟨_, .error .eintr⟩ => none
  | ⟨_, .error (.errno code)⟩ => some (.failed code)

def windowsTurn : Event WindowsReply → Option Turn
  | ⟨.setFilePointerEx _, .ok _⟩ => none
  | ⟨.readFile _, .ok data⟩ => some (.moved data.length)
  | ⟨.writeFile _, .ok count⟩ => some (.moved count)
  | ⟨.readFile _, .error .handleEof⟩ => some (.moved 0)
  | ⟨_, .error error⟩ => some (.failed (windowsError error))

/-- The loop over the turns: its result and its count. Without progress the
result is `stalled`. -/
def settle (stalled : Except Errno Unit) : List Turn → (transferred : Nat) → Except Errno Unit × Nat
  | [], transferred => (.ok (), transferred)
  | .moved count :: rest, transferred => if count = 0 then (stalled, transferred) else settle stalled rest (transferred + count)
  | .failed code :: _, transferred => (.error code, transferred)

/-- What a write is to leave. -/
structure Wrote (content : Bytes) (offset : Nat) (buffer : Bytes) (result : Except Errno Unit) (transferred : Nat)
    (after : Bytes) : Prop where
  complete : result = .ok () ↔ transferred = buffer.length
  within : transferred ≤ buffer.length
  replaced : after = writeAt content offset (buffer.take transferred)

/-- What a read is to deliver. -/
structure Delivered (early : Prop) (content : Bytes) (offset length : Nat) (result : Except Errno Unit) (bytes after : Bytes) :
    Prop where
  complete : result = .ok () → ¬ early → bytes.length = min length (content.length - offset)
  within : bytes.length ≤ length
  exactly : bytes = readAt content offset bytes.length
  unchanged : after = content

end Progress

section Loop
variable {Call Progress State : Type} {Reply : Call → Type} {length fuel : Nat} {transferred : Progress → Nat}
  {request : Progress → Call} {react : (progress : Progress) → Reply (request progress) → Reaction Progress}
  {turn : Event Reply → Option Turn} {stalled : Except Errno Unit} {progress : Progress} {events : List (Event Reply)}

/-- A reaction does what its turn says. -/
def Follows (turn : Event Reply → Option Turn) (stalled : Except Errno Unit) (transferred : Progress → Nat)
    (request : Progress → Call) (react : (progress : Progress) → Reply (request progress) → Reaction Progress) : Prop :=
  ∀ progress reply,
    match turn ⟨request progress, reply⟩ with
    | none => react progress reply = .again progress
    | some (.moved count) =>
        if count = 0 then react progress reply = .leave stalled
        else ∃ next, react progress reply = .again next ∧ transferred next = transferred progress + count
    | some (.failed code) => react progress reply = .leave (.error code)

/-- The loop returns within as many turns as there are bytes left, with what they say. -/
theorem loop_settles (follows : Follows turn stalled transferred request react) {outcome : Option (Except Errno Unit × Progress)}
    (traces : (transferLoop length transferred request react fuel progress).Traces events outcome) :
    (events.filterMap turn).length ≤ length - transferred progress ∧ (outcome = none → fuel ≤ events.length) ∧
      ∀ result last, outcome = some (result, last) →
        (result, transferred last) = settle stalled (events.filterMap turn) (transferred progress) := by
  induction fuel generalizing progress events with
  | zero =>
      cases traces
      refine ⟨Nat.zero_le _, fun _ => Nat.zero_le _, fun result last returned => ?_⟩
      split at returned
      · cases returned
      · cases returned
        rfl
  | succ fuel ih =>
      rw [transferLoop] at traces
      by_cases more : transferred progress < length
      · rw [if_pos more] at traces
        cases traces with
        | @ask _ _ reply events _ rest =>
            beta_reduce at rest
            have step := follows progress reply
            cases told : turn ⟨request progress, reply⟩ with
            | none =>
                rw [told] at step
                simp only at step
                rw [step] at rest
                obtain ⟨few, spent, result⟩ := ih rest
                rw [List.filterMap_cons_none told, List.length_cons]
                exact ⟨few, fun none => Nat.succ_le_succ (spent none), result⟩
            | some taken =>
                rw [told] at step
                rw [List.filterMap_cons_some told, List.length_cons]
                cases taken with
                | failed code =>
                    simp only at step
                    rw [step] at rest
                    cases rest
                    refine ⟨by simp only [List.filterMap_nil, List.length_nil]; omega, nofun, fun result last returned => ?_⟩
                    cases returned
                    rfl
                | moved count =>
                    simp only at step
                    by_cases nothing : count = 0
                    · rw [if_pos nothing] at step
                      rw [step] at rest
                      cases rest
                      refine ⟨by simp only [List.filterMap_nil, List.length_nil]; omega, nofun, fun result last returned => ?_⟩
                      cases returned
                      rw [settle, if_pos nothing]
                    · rw [if_neg nothing] at step
                      obtain ⟨next, again, further⟩ := step
                      rw [again] at rest
                      obtain ⟨few, spent, result⟩ := ih rest
                      rw [further] at few result
                      refine ⟨by omega, fun none => Nat.succ_le_succ (spent none), fun result' last returned => ?_⟩
                      rw [settle, if_neg nothing]
                      exact result result' last returned
      · rw [if_neg more] at traces
        cases traces
        refine ⟨Nat.zero_le _, nofun, fun result last returned => ?_⟩
        cases returned
        rfl

/-- The count passes the length nowhere in a run, if no call moves more than it
was asked for. -/
theorem loop_within {happens : State → Event Reply → State → Prop} (follows : Follows turn stalled transferred request react)
    (asked : ∀ state progress reply after count, happens state ⟨request progress, reply⟩ after →
      turn ⟨request progress, reply⟩ = some (.moved count) → count ≤ length - transferred progress)
    {outcome : Option (Except Errno Unit × Progress)} {state after : State} (start : transferred progress ≤ length)
    (traces : (transferLoop length transferred request react fuel progress).Traces events outcome)
    (ran : Happen happens state events after) : (settle stalled (events.filterMap turn) (transferred progress)).2 ≤ length := by
  induction fuel generalizing progress events state with
  | zero =>
      cases traces
      exact start
  | succ fuel ih =>
      rw [transferLoop] at traces
      by_cases more : transferred progress < length
      · rw [if_pos more] at traces
        cases traces with
        | @ask _ _ reply events _ rest =>
            beta_reduce at rest
            cases ran with
            | @cons _ middle _ _ _ first later =>
                have step := follows progress reply
                cases told : turn ⟨request progress, reply⟩ with
                | none =>
                    rw [told] at step
                    simp only at step
                    rw [step] at rest
                    rw [List.filterMap_cons_none told]
                    exact ih start rest later
                | some taken =>
                    rw [told] at step
                    rw [List.filterMap_cons_some told]
                    cases taken with
                    | failed code => exact start
                    | moved count =>
                        have few := asked _ _ _ _ _ first told
                        simp only at step
                        by_cases nothing : count = 0
                        · rw [settle, if_pos nothing]
                          exact start
                        · rw [if_neg nothing] at step
                          obtain ⟨next, again, further⟩ := step
                          rw [again] at rest
                          rw [settle, if_neg nothing, ← further]
                          exact ih (by omega) rest later
      · rw [if_neg more] at traces
        cases traces
        exact start

/-- An invariant of the loop holds where it returns. -/
theorem loop_leaves {happens : State → Event Reply → State → Prop} {holds : State → Progress → Prop}
    {leaves : State → Except Errno Unit → Progress → Prop}
    (step : ∀ state progress reply after, holds state progress → transferred progress < length →
      happens state ⟨request progress, reply⟩ after →
      match react progress reply with
      | .again next => holds after next
      | .leave result => leaves after result progress)
    (finish : ∀ state progress, holds state progress → ¬ transferred progress < length → leaves state (.ok ()) progress)
    {result : Except Errno Unit} {last : Progress} {state after : State} (start : holds state progress)
    (traces : (transferLoop length transferred request react fuel progress).Traces events (some (result, last)))
    (ran : Happen happens state events after) : leaves after result last := by
  induction fuel generalizing progress events state with
  | zero =>
      rw [transferLoop] at traces
      by_cases more : transferred progress < length
      · rw [if_pos more] at traces
        cases traces
      · rw [if_neg more] at traces
        cases traces
        cases ran
        exact finish _ _ start more
  | succ fuel ih =>
      rw [transferLoop] at traces
      by_cases more : transferred progress < length
      · rw [if_pos more] at traces
        cases traces with
        | @ask _ _ reply events _ rest =>
            beta_reduce at rest
            cases ran with
            | @cons _ middle _ _ _ first later =>
                have here := step _ _ reply _ start more first
                cases reacts : react progress reply with
                | again next =>
                    rw [reacts] at here rest
                    exact ih here rest later
                | leave result =>
                    rw [reacts] at here rest
                    cases rest
                    cases later
                    exact here
      · rw [if_neg more] at traces
        cases traces
        cases ran
        exact finish _ _ start more

end Loop

section Runs
variable {Call : Type} {Reply : Call → Type}

/-- A write loop in every run of native calls: it returns unless the calls run
out, after no more turns than bytes, with what its turns say, and leaves that. -/
structure Writes (program : (fuel : Nat) → Prog Reply (Option (Except Errno Unit × Nat)))
    (happens : Bytes → List (Event Reply) → Bytes → Prop) (turn : Event Reply → Option Turn) (offset : Nat) (buffer : Bytes) :
    Prop where
  returns : ∀ fuel events outcome, (program fuel).Traces events outcome →
    (events.filterMap turn).length ≤ buffer.length ∧ (outcome = none → fuel ≤ events.length)
  settles : ∀ fuel events result count, (program fuel).Traces events (some (result, count)) →
    (result, count) = settle (.error .eio) (events.filterMap turn) 0
  bounded : ∀ fuel content events after outcome, (program fuel).Traces events outcome → happens content events after →
    offset + (settle (.error .eio) (events.filterMap turn) 0).2 ≤ int64Max
  leaves : ∀ fuel content events after result count, (program fuel).Traces events (some (result, count)) →
    happens content events after → Wrote content offset buffer result count after

/-- The same of a read loop. -/
structure Fetches (early : Prop) (program : (fuel : Nat) → Prog Reply (Option (Except Errno Unit × Bytes)))
    (happens : Bytes → List (Event Reply) → Bytes → Prop) (turn : Event Reply → Option Turn) (offset length : Nat) : Prop where
  returns : ∀ fuel events outcome, (program fuel).Traces events outcome →
    (events.filterMap turn).length ≤ length ∧ (outcome = none → fuel ≤ events.length)
  settles : ∀ fuel events result bytes, (program fuel).Traces events (some (result, bytes)) →
    (result, bytes.length) = settle (.ok ()) (events.filterMap turn) 0
  bounded : ∀ fuel content events after outcome, (program fuel).Traces events outcome → happens content events after →
    offset + (settle (.ok ()) (events.filterMap turn) 0).2 ≤ int64Max
  delivers : ∀ fuel content events after result bytes, (program fuel).Traces events (some (result, bytes)) →
    happens content events after → Delivered early content offset length result bytes after

end Runs

section Loops
variable {early : Prop} {opened : Bool} {ssizeMax limit offset length : Nat} {content buffer : Bytes}

theorem capped_le (limit remaining : Nat) : capped limit remaining ≤ remaining := by
  unfold capped
  split <;> omega

/-- The sum that the check makes sure of. -/
theorem accepted_bound (accepted : checkTransfer opened offset length = .ok ()) : offset + length ≤ int64Max := by
  unfold checkTransfer at accepted
  split at accepted
  · cases accepted
  split at accepted
  · cases accepted
  · omega

/-- So much of the buffer is in the file. -/
def WrittenTo (content : Bytes) (offset : Nat) (buffer : Bytes) (transferred : Nat) (file : Bytes) : Prop :=
  transferred ≤ buffer.length ∧ file = writeAt content offset (buffer.take transferred)

theorem written_start : WrittenTo content offset buffer 0 content := ⟨Nat.zero_le _, (write_nil _ _).symm⟩

theorem written_more {transferred count : Nat} {file : Bytes} (written : WrittenTo content offset buffer transferred file)
    (asked : count ≤ ((buffer.drop transferred).take (capped limit (buffer.length - transferred))).length) :
    WrittenTo content offset buffer (transferred + count) (writeAt file (offset + transferred)
      (((buffer.drop transferred).take (capped limit (buffer.length - transferred))).take count)) := by
  obtain ⟨within, rfl⟩ := written
  have most := capped_le limit (buffer.length - transferred)
  rw [List.length_take, List.length_drop] at asked
  refine ⟨by omega, ?_⟩
  rw [List.take_take, Nat.min_eq_left (by omega), List.take_add]
  by_cases first : transferred = 0
  · subst first
    simp
  · have size : (buffer.take transferred).length = transferred := List.length_take_of_le within
    have some : buffer.take transferred ≠ [] := fun none => first (by rw [← size, none]; rfl)
    have joined := write_write content offset (buffer.take transferred) ((buffer.drop transferred).take count) some
    rwa [size] at joined

/-- So much of the file is in the buffer. -/
def ReadFrom (content : Bytes) (offset length : Nat) (bytes : Bytes) : Prop :=
  bytes.length ≤ length ∧ bytes = readAt content offset bytes.length

theorem read_start : ReadFrom content offset length [] := ⟨Nat.zero_le _, rfl⟩

theorem ReadFrom.available {bytes : Bytes} (read : ReadFrom content offset length bytes) :
    bytes.length ≤ content.length - offset := by
  have size := congrArg List.length read.2
  rw [read_length] at size
  omega

theorem read_more {bytes : Bytes} {most : Nat} (read : ReadFrom content offset length bytes)
    (asked : most ≤ capped limit (length - bytes.length)) :
    ReadFrom content offset length (bytes ++ readAt content (offset + bytes.length) most) := by
  have cap := capped_le limit (length - bytes.length)
  have within := read.1
  have joined : bytes ++ readAt content (offset + bytes.length) most = readAt content offset (bytes.length + most) := by
    rw [← read_append bytes.length most, ← read.2]
  refine ⟨?_, ?_⟩
  · rw [List.length_append, read_length]
    omega
  · rw [joined, read_again]

theorem read_ended {bytes : Bytes} (read : ReadFrom content offset length bytes)
    (ended : content.length ≤ offset + bytes.length) : bytes.length = min length (content.length - offset) := by
  have within := read.1
  have available := read.available
  omega

theorem posix_write_follows : Follows posixTurn (.error .eio) id
    (fun transferred => .pwrite ((buffer.drop transferred).take (capped ssizeMax (buffer.length - transferred))) (offset + transferred))
    fun transferred reply =>
      match reply with
      | .error .eintr => .again transferred
      | .error (.errno code) => .leave (.error code)
      | .ok count => if count = 0 then .leave (.error .eio) else .again (transferred + count) := by
  intro transferred reply
  cases reply with
  | error error => cases error <;> rfl
  | ok count =>
      simp only [posixTurn]
      by_cases none : count = 0
      · rw [if_pos none, if_pos none]
      · rw [if_neg none, if_neg none]
        exact ⟨_, rfl, rfl⟩

theorem posix_write_asked (content : Bytes) (transferred : Nat) (reply : PosixReply
      (.pwrite ((buffer.drop transferred).take (capped ssizeMax (buffer.length - transferred))) (offset + transferred)))
    (after : Bytes) (count : Nat) (step : PosixStep early content ⟨_, reply⟩ after)
    (moved : posixTurn ⟨_, reply⟩ = some (.moved count)) : count ≤ buffer.length - id transferred := by
  cases step with
  | writeFailed error => cases error <;> cases moved
  | write asked =>
      cases moved
      rw [List.length_take, List.length_drop] at asked
      exact asked.trans (Nat.min_le_right _ _)

theorem posix_writes (accepted : checkTransfer opened offset buffer.length = .ok ()) :
    Writes (posixWrite opened ssizeMax offset buffer) (Happen (PosixStep early)) posixTurn offset buffer := by
  have program : ∀ fuel, posixWrite opened ssizeMax offset buffer fuel = posixWriteLoop ssizeMax offset buffer fuel 0 := by
    intro fuel
    rw [posixWrite, accepted]
  have bound := accepted_bound accepted
  refine ⟨fun fuel events outcome traces => ?_, fun fuel events result count traces => ?_,
    fun fuel content events after outcome traces ran => ?_, fun fuel content events after result count traces ran => ?_⟩
  all_goals rw [program] at traces
  · have settled := loop_settles posix_write_follows traces
    exact ⟨settled.1, settled.2.1⟩
  · exact (loop_settles posix_write_follows traces).2.2 result count rfl
  · have within := loop_within posix_write_follows posix_write_asked (Nat.zero_le _) traces ran
    exact (Nat.add_le_add_left within offset).trans bound
  · have left := @loop_leaves _ _ _ _ _ _ _ _ _ _ _ (PosixStep early)
      (fun file transferred => WrittenTo content offset buffer transferred file)
      (fun file result transferred => (result = .ok () ↔ transferred = buffer.length) ∧
        WrittenTo content offset buffer transferred file) ?_ ?_ _ _ _ _ written_start traces ran
    · exact ⟨left.1, left.2.1, left.2.2⟩
    · intro file transferred reply after written more step
      have short : transferred ≠ buffer.length := Nat.ne_of_lt more
      cases step with
      | writeFailed error =>
          cases error with
          | eintr => exact written
          | errno code => exact ⟨⟨nofun, fun whole => absurd whole short⟩, written⟩
      | @write _ _ count asked =>
          by_cases none : count = 0
          · subst none
            exact ⟨⟨nofun, fun whole => absurd whole short⟩, written.1, by simpa using written.2⟩
          · simp only [if_neg none]
            exact written_more written asked
    · intro file transferred written full
      have within := written.1
      exact ⟨⟨fun _ => Nat.le_antisymm within (Nat.le_of_not_lt full), fun _ => rfl⟩, written⟩

theorem windows_write_follows : Follows windowsTurn (.error .eio) id
    (fun transferred => .writeFile ((buffer.drop transferred).take (capped limit (buffer.length - transferred))))
    fun transferred reply =>
      match reply with
      | .error error => .leave (.error (windowsError error))
      | .ok count => if count = 0 then .leave (.error .eio) else .again (transferred + count) := by
  intro transferred reply
  cases reply with
  | error error => rfl
  | ok count =>
      simp only [windowsTurn]
      by_cases none : count = 0
      · rw [if_pos none, if_pos none]
      · rw [if_neg none, if_neg none]
        exact ⟨_, rfl, rfl⟩

/-- The sequential calls on the bytes alone, from any position. -/
def WindowsHappen (early : Prop) (content : Bytes) (events : List (Event WindowsReply)) (after : Bytes) : Prop :=
  ∃ position position', Happen (WindowsStep early) ⟨content, position⟩ events ⟨after, position'⟩

theorem windows_write_asked (file : WindowsFile) (transferred : Nat) (reply : WindowsReply
      (.writeFile ((buffer.drop transferred).take (capped limit (buffer.length - transferred)))))
    (after : WindowsFile) (count : Nat) (step : WindowsStep early file ⟨_, reply⟩ after)
    (moved : windowsTurn ⟨_, reply⟩ = some (.moved count)) : count ≤ buffer.length - id transferred := by
  cases step with
  | writeFailed error => cases moved
  | write asked =>
      cases moved
      rw [List.length_take, List.length_drop] at asked
      exact asked.trans (Nat.min_le_right _ _)

theorem windows_writes (accepted : checkTransfer opened offset buffer.length = .ok ()) :
    Writes (windowsWrite opened limit offset buffer) (WindowsHappen early) windowsTurn offset buffer := by
  have bound := accepted_bound accepted
  by_cases empty : buffer.length = 0
  · have program : ∀ fuel, windowsWrite opened limit offset buffer fuel = .done (some (.ok (), 0)) := by
      intro fuel
      rw [windowsWrite, accepted]
      exact if_pos empty
    refine ⟨fun fuel events outcome traces => ?_, fun fuel events result count traces => ?_,
      fun fuel content events after outcome traces ran => ?_, fun fuel content events after result count traces ran => ?_⟩
    all_goals
      rw [program] at traces
      cases traces
    · exact ⟨Nat.zero_le _, nofun⟩
    · rfl
    · exact (Nat.le_add_right offset buffer.length).trans bound
    · obtain ⟨position, position', ran⟩ := ran
      cases ran
      exact ⟨⟨fun _ => empty.symm, fun _ => rfl⟩, Nat.zero_le _, (write_nil _ _).symm⟩
  have program : ∀ fuel, windowsWrite opened limit offset buffer fuel = .ask (.setFilePointerEx offset) fun
      | .error error => .done (some (.error (windowsError error), 0))
      | .ok () => windowsWriteLoop limit buffer fuel 0 := by
    intro fuel
    rw [windowsWrite, accepted]
    exact if_neg empty
  refine ⟨fun fuel events outcome traces => ?_, fun fuel events result count traces => ?_,
    fun fuel content events after outcome traces ran => ?_, fun fuel content events after result count traces ran => ?_⟩
  all_goals
    rw [program] at traces
    cases traces with
    | @ask _ _ reply events _ rest => ?_
  · cases reply with
    | error error =>
        cases rest
        exact ⟨show 1 ≤ buffer.length by omega, nofun⟩
    | ok sought =>
        have settled := loop_settles windows_write_follows rest
        exact ⟨settled.1, fun none => Nat.le_succ_of_le (settled.2.1 none)⟩
  · cases reply with
    | error error =>
        cases rest
        rfl
    | ok sought => exact (loop_settles windows_write_follows rest).2.2 result count rfl
  · obtain ⟨position, position', ran⟩ := ran
    cases ran with
    | cons first later =>
        cases reply with
        | error error =>
            cases rest
            exact (Nat.le_add_right offset buffer.length).trans bound
        | ok sought =>
            have within := loop_within windows_write_follows windows_write_asked (Nat.zero_le _) rest later
            exact (Nat.add_le_add_left within offset).trans bound
  · obtain ⟨position, position', ran⟩ := ran
    cases ran with
    | cons first later =>
        cases first with
        | seekFailed error position'' =>
            cases rest
            cases later
            exact ⟨⟨nofun, fun whole => absurd whole.symm empty⟩, Nat.zero_le _, (write_nil _ _).symm⟩
        | seek =>
            have left := @loop_leaves _ _ _ _ _ _ _ _ _ _ _ (WindowsStep early)
              (fun file transferred => WrittenTo content offset buffer transferred file.content ∧
                file.position = offset + transferred)
              (fun file result transferred => (result = .ok () ↔ transferred = buffer.length) ∧
                WrittenTo content offset buffer transferred file.content) ?_ ?_ _ _ _ _ ⟨written_start, rfl⟩ rest later
            · exact ⟨left.1, left.2.1, left.2.2⟩
            · intro file transferred reply after written more step
              obtain ⟨written, place⟩ := written
              have short : transferred ≠ buffer.length := Nat.ne_of_lt more
              cases step with
              | writeFailed error position => exact ⟨⟨nofun, fun whole => absurd whole short⟩, written⟩
              | @write _ count asked =>
                  by_cases none : count = 0
                  · subst none
                    exact ⟨⟨nofun, fun whole => absurd whole short⟩, written.1, by simpa using written.2⟩
                  · simp only [if_neg none, place]
                    exact ⟨written_more written asked, Nat.add_assoc _ _ _⟩
            · intro file transferred written full
              have within := written.1.1
              exact ⟨⟨fun _ => Nat.le_antisymm within (Nat.le_of_not_lt full), fun _ => rfl⟩, written.1⟩

theorem posix_read_follows : Follows posixTurn (.ok ()) List.length
    (fun bytes : Bytes => .pread (capped ssizeMax (length - bytes.length)) (offset + bytes.length)) fun bytes reply =>
      match reply with
      | .error .eintr => .again bytes
      | .error (.errno code) => .leave (.error code)
      | .ok data => if data.length = 0 then .leave (.ok ()) else .again (bytes ++ data) := by
  intro bytes reply
  cases reply with
  | error error => cases error <;> rfl
  | ok data =>
      simp only [posixTurn]
      by_cases none : data.length = 0
      · rw [if_pos none, if_pos none]
      · rw [if_neg none, if_neg none]
        exact ⟨_, rfl, List.length_append⟩

theorem posix_read_asked (content bytes : Bytes)
    (reply : PosixReply (.pread (capped ssizeMax (length - bytes.length)) (offset + bytes.length))) (after : Bytes) (count : Nat)
    (step : PosixStep early content ⟨_, reply⟩ after) (moved : posixTurn ⟨_, reply⟩ = some (.moved count)) :
    count ≤ length - bytes.length := by
  cases step with
  | readFailed error => cases error <;> cases moved
  | read asked =>
      have cap := capped_le ssizeMax (length - bytes.length)
      cases moved
      rw [read_length]
      omega

theorem posix_reads (accepted : checkTransfer opened offset length = .ok ()) :
    Fetches early (posixRead opened ssizeMax offset length) (Happen (PosixStep early)) posixTurn offset length := by
  have program : ∀ fuel, posixRead opened ssizeMax offset length fuel = posixReadLoop ssizeMax offset length fuel [] := by
    intro fuel
    rw [posixRead, accepted]
  have bound := accepted_bound accepted
  refine ⟨fun fuel events outcome traces => ?_, fun fuel events result bytes traces => ?_,
    fun fuel content events after outcome traces ran => ?_, fun fuel content events after result bytes traces ran => ?_⟩
  all_goals rw [program] at traces
  · have settled := loop_settles posix_read_follows traces
    exact ⟨settled.1, settled.2.1⟩
  · exact (loop_settles posix_read_follows traces).2.2 result bytes rfl
  · have within := loop_within posix_read_follows posix_read_asked (Nat.zero_le _) traces ran
    exact (Nat.add_le_add_left within offset).trans bound
  · have left := @loop_leaves _ _ _ _ _ _ _ _ _ _ _ (PosixStep early)
      (fun file bytes => ReadFrom content offset length bytes ∧ file = content)
      (fun file result bytes => (result = .ok () → ¬ early → bytes.length = min length (content.length - offset)) ∧
        ReadFrom content offset length bytes ∧ file = content) ?_ ?_ _ _ _ _ ⟨read_start, rfl⟩ traces ran
    · exact ⟨left.1, left.2.1.1, left.2.1.2, left.2.2⟩
    · intro file bytes reply after read more step
      obtain ⟨read, same⟩ := read
      cases step with
      | readFailed error =>
          cases error with
          | eintr => exact ⟨read, same⟩
          | errno code => exact ⟨nofun, read, same⟩
      | @read _ _ most asked ended =>
          subst same
          by_cases none : (readAt file (offset + bytes.length) most).length = 0
          · simp only [if_pos none]
            exact ⟨fun _ reliable => read_ended read ((ended none).resolve_right reliable), read, trivial⟩
          · simp only [if_neg none]
            exact ⟨read_more read asked, trivial⟩
    · intro file bytes read full
      obtain ⟨read, same⟩ := read
      have within := read.1
      have available := read.available
      exact ⟨fun _ _ => by omega, read, same⟩

theorem windows_read_follows : Follows windowsTurn (.ok ()) List.length
    (fun bytes : Bytes => .readFile (capped limit (length - bytes.length))) fun bytes reply =>
      match reply with
      | .error error => .leave (if error = .handleEof then .ok () else .error (windowsError error))
      | .ok data => if data.length = 0 then .leave (.ok ()) else .again (bytes ++ data) := by
  intro bytes reply
  cases reply with
  | error error => cases error <;> rfl
  | ok data =>
      simp only [windowsTurn]
      by_cases none : data.length = 0
      · rw [if_pos none, if_pos none]
      · rw [if_neg none, if_neg none]
        exact ⟨_, rfl, List.length_append⟩

theorem windows_read_asked (file : WindowsFile) (bytes : Bytes)
    (reply : WindowsReply (.readFile (capped limit (length - bytes.length)))) (after : WindowsFile) (count : Nat)
    (step : WindowsStep early file ⟨_, reply⟩ after) (moved : windowsTurn ⟨_, reply⟩ = some (.moved count)) :
    count ≤ length - bytes.length := by
  cases step with
  | readFailed error position => cases error <;> cases moved <;> exact Nat.zero_le _
  | read asked =>
      have cap := capped_le limit (length - bytes.length)
      cases moved
      rw [read_length]
      omega

theorem windows_reads (accepted : checkTransfer opened offset length = .ok ()) :
    Fetches early (windowsRead opened limit offset length) (WindowsHappen early) windowsTurn offset length := by
  have bound := accepted_bound accepted
  by_cases empty : length = 0
  · have program : ∀ fuel, windowsRead opened limit offset length fuel = .done (some (.ok (), [])) := by
      intro fuel
      rw [windowsRead, accepted]
      exact if_pos empty
    refine ⟨fun fuel events outcome traces => ?_, fun fuel events result bytes traces => ?_,
      fun fuel content events after outcome traces ran => ?_, fun fuel content events after result bytes traces ran => ?_⟩
    all_goals
      rw [program] at traces
      cases traces
    · exact ⟨Nat.zero_le _, nofun⟩
    · rfl
    · exact (Nat.le_add_right offset length).trans bound
    · obtain ⟨position, position', ran⟩ := ran
      cases ran
      exact ⟨fun _ _ => by rw [empty, Nat.zero_min]; rfl, Nat.zero_le _, rfl, rfl⟩
  have program : ∀ fuel, windowsRead opened limit offset length fuel = .ask (.setFilePointerEx offset) fun
      | .error error => .done (some (.error (windowsError error), []))
      | .ok () => windowsReadLoop limit length fuel [] := by
    intro fuel
    rw [windowsRead, accepted]
    exact if_neg empty
  refine ⟨fun fuel events outcome traces => ?_, fun fuel events result bytes traces => ?_,
    fun fuel content events after outcome traces ran => ?_, fun fuel content events after result bytes traces ran => ?_⟩
  all_goals
    rw [program] at traces
    cases traces with
    | @ask _ _ reply events _ rest => ?_
  · cases reply with
    | error error =>
        cases rest
        exact ⟨show 1 ≤ length by omega, nofun⟩
    | ok sought =>
        have settled := loop_settles windows_read_follows rest
        exact ⟨settled.1, fun none => Nat.le_succ_of_le (settled.2.1 none)⟩
  · cases reply with
    | error error =>
        cases rest
        rfl
    | ok sought => exact (loop_settles windows_read_follows rest).2.2 result bytes rfl
  · obtain ⟨position, position', ran⟩ := ran
    cases ran with
    | cons first later =>
        cases reply with
        | error error =>
            cases rest
            exact (Nat.le_add_right offset length).trans bound
        | ok sought =>
            have within := loop_within windows_read_follows windows_read_asked (Nat.zero_le _) rest later
            exact (Nat.add_le_add_left within offset).trans bound
  · obtain ⟨position, position', ran⟩ := ran
    cases ran with
    | cons first later =>
        cases first with
        | seekFailed error position'' =>
            cases rest
            cases later
            exact ⟨nofun, Nat.zero_le _, rfl, rfl⟩
        | seek =>
            have left := @loop_leaves _ _ _ _ _ _ _ _ _ _ _ (WindowsStep early)
              (fun file bytes => ReadFrom content offset length bytes ∧ file = ⟨content, offset + bytes.length⟩)
              (fun file result bytes => (result = .ok () → ¬ early → bytes.length = min length (content.length - offset)) ∧
                ReadFrom content offset length bytes ∧ file.content = content) ?_ ?_ _ _ _ _ ⟨read_start, rfl⟩ rest later
            · exact ⟨left.1, left.2.1.1, left.2.1.2, left.2.2⟩
            · intro file bytes reply after read more step
              obtain ⟨read, rfl⟩ := read
              cases step with
              | readFailed error position ended =>
                  refine ⟨fun fine reliable => read_ended read ((ended ?_).resolve_right reliable), read, rfl⟩
                  by_contra other
                  rw [if_neg other] at fine
                  cases fine
              | @read _ most asked ended =>
                  by_cases none : (readAt content (offset + bytes.length) most).length = 0
                  · simp only [if_pos none]
                    exact ⟨fun _ reliable => read_ended read ((ended none).resolve_right reliable), read, trivial⟩
                  · simp only [if_neg none]
                    exact ⟨read_more read asked, by rw [List.length_append, Nat.add_assoc]⟩
            · intro file bytes read full
              obtain ⟨read, same⟩ := read
              have within := read.1
              have available := read.available
              exact ⟨fun _ _ => by omega, read, by rw [same]⟩

end Loops

section Backends
variable {early : Prop} {opened : Bool} {ssizeMax limit offset length : Nat} {content buffer : Bytes}

/-- Two runs whose native calls get as far tell the same. -/
theorem writes_alike {Call Call' : Type} {Reply : Call → Type} {Reply' : Call' → Type}
    {program : (fuel : Nat) → Prog Reply (Option (Except Errno Unit × Nat))}
    {program' : (fuel : Nat) → Prog Reply' (Option (Except Errno Unit × Nat))}
    {happens : Bytes → List (Event Reply) → Bytes → Prop} {happens' : Bytes → List (Event Reply') → Bytes → Prop}
    {turn : Event Reply → Option Turn} {turn' : Event Reply' → Option Turn}
    (writes : Writes program happens turn offset buffer) (writes' : Writes program' happens' turn' offset buffer)
    {fuel fuel' count count' : Nat} {events : List (Event Reply)} {events' : List (Event Reply')} {after after' : Bytes}
    {result result' : Except Errno Unit} (traces : (program fuel).Traces events (some (result, count)))
    (traces' : (program' fuel').Traces events' (some (result', count'))) (ran : happens content events after)
    (ran' : happens' content events' after') (same : events.filterMap turn = events'.filterMap turn') :
    result = result' ∧ count = count' ∧ after = after' := by
  have first := writes.settles fuel events result count traces
  have second := writes'.settles fuel' events' result' count' traces'
  rw [same, ← second] at first
  cases first
  exact ⟨rfl, rfl, by rw [(writes.leaves _ _ _ _ _ _ traces ran).replaced, (writes'.leaves _ _ _ _ _ _ traces' ran').replaced]⟩

theorem fetches_alike {Call Call' : Type} {Reply : Call → Type} {Reply' : Call' → Type}
    {program : (fuel : Nat) → Prog Reply (Option (Except Errno Unit × Bytes))}
    {program' : (fuel : Nat) → Prog Reply' (Option (Except Errno Unit × Bytes))}
    {happens : Bytes → List (Event Reply) → Bytes → Prop} {happens' : Bytes → List (Event Reply') → Bytes → Prop}
    {turn : Event Reply → Option Turn} {turn' : Event Reply' → Option Turn}
    (fetches : Fetches early program happens turn offset length) (fetches' : Fetches early program' happens' turn' offset length)
    {fuel fuel' : Nat} {events : List (Event Reply)} {events' : List (Event Reply')} {bytes bytes' after after' : Bytes}
    {result result' : Except Errno Unit} (traces : (program fuel).Traces events (some (result, bytes)))
    (traces' : (program' fuel').Traces events' (some (result', bytes'))) (ran : happens content events after)
    (ran' : happens' content events' after') (same : events.filterMap turn = events'.filterMap turn') :
    result = result' ∧ bytes = bytes' ∧ after = after' := by
  have first := fetches.settles fuel events result bytes traces
  have second := fetches'.settles fuel' events' result' bytes' traces'
  rw [same, ← second] at first
  obtain ⟨rfl, size⟩ := Prod.mk.inj first
  have here := fetches.delivers _ _ _ _ _ _ traces ran
  have there := fetches'.delivers _ _ _ _ _ _ traces' ran'
  exact ⟨rfl, by rw [here.exactly, there.exactly, size], here.unchanged.trans there.unchanged.symm⟩

/-- The four transfers are exact whatever the native calls do, and the backends
tell the same of calls that get as far. -/
theorem transfers_exact (accepted : checkTransfer opened offset length = .ok ()) (sized : buffer.length = length) :
    Writes (posixWrite opened ssizeMax offset buffer) (Happen (PosixStep early)) posixTurn offset buffer ∧
      Writes (windowsWrite opened limit offset buffer) (WindowsHappen early) windowsTurn offset buffer ∧
      Fetches early (posixRead opened ssizeMax offset length) (Happen (PosixStep early)) posixTurn offset length ∧
      Fetches early (windowsRead opened limit offset length) (WindowsHappen early) windowsTurn offset length ∧
      (∀ fuel fuel' content events events' after after' result result' count count',
        (posixWrite opened ssizeMax offset buffer fuel).Traces events (some (result, count)) →
        (windowsWrite opened limit offset buffer fuel').Traces events' (some (result', count')) →
        Happen (PosixStep early) content events after → WindowsHappen early content events' after' →
        events.filterMap posixTurn = events'.filterMap windowsTurn → result = result' ∧ count = count' ∧ after = after') ∧
      ∀ fuel fuel' content events events' after after' result result' bytes bytes',
        (posixRead opened ssizeMax offset length fuel).Traces events (some (result, bytes)) →
        (windowsRead opened limit offset length fuel').Traces events' (some (result', bytes')) →
        Happen (PosixStep early) content events after → WindowsHappen early content events' after' →
        events.filterMap posixTurn = events'.filterMap windowsTurn → result = result' ∧ bytes = bytes' ∧ after = after' := by
  subst sized
  have posixWrites := @posix_writes early _ ssizeMax _ _ accepted
  have windowsWrites := @windows_writes early _ limit _ _ accepted
  have posixReads := @posix_reads early _ ssizeMax _ _ accepted
  have windowsReads := @windows_reads early _ limit _ _ accepted
  refine ⟨posixWrites, windowsWrites, posixReads, windowsReads, ?_, ?_⟩
  · intro fuel fuel' content events events' after after' result result' count count' traces traces' ran ran' same
    exact writes_alike posixWrites windowsWrites traces traces' ran ran' same
  · intro fuel fuel' content events events' after after' result result' bytes bytes' traces traces' ran ran' same
    exact fetches_alike posixReads windowsReads traces traces' ran ran' same

-- A retried call and two short ones, past a gap.
theorem transfers_exact_gap : Wrote [9, 9, 9, 9] 6 [1, 2, 3, 4, 5] (.ok ()) 5 [9, 9, 9, 9, 0, 0, 1, 2, 3, 4, 5] := by
  have exact := @transfers_exact False true 3 3 6 5 [1, 2, 3, 4, 5] rfl rfl
  refine exact.1.leaves 3 [9, 9, 9, 9] [⟨.pwrite [1, 2, 3] 6, .error .eintr⟩, ⟨.pwrite [1, 2, 3] 6, .ok 2⟩, ⟨.pwrite [3, 4, 5] 8, .ok 3⟩]
    [9, 9, 9, 9, 0, 0, 1, 2, 3, 4, 5] (.ok ()) 5 ?_ ?_
  · exact .ask (.ask (.ask (.done _)))
  · exact .cons (.writeFailed .eintr) (.cons (.write (by decide)) (.cons (.write (by decide)) (.nil _)))

end Backends

section Serving
variable {early : Prop} {offset length count : Nat} {buffer bytes after : Bytes} {store : Backend.Store} {file : Backend.File}

theorem delivered_serves (delivered : Delivered False (store.content file) offset length (.ok ()) bytes after) :
    Backend.serve (.read file offset length) store = (.ok bytes, store) := by
  have size := delivered.complete rfl id
  have exactly := delivered.exactly
  rw [size, ← read_length, read_again] at exactly
  rw [exactly]
  rfl

end Serving

end Timelite.Transfers
