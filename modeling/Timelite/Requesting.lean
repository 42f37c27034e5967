import Timelite.Discipline
import Timelite.System

/-!
What the calls request on files that are open already: they read, sync and
truncate, and write behind the pair headers. This holds whatever the backend
replies.
-/
namespace Timelite.Requesting
open ByteFile Program Codec Backend Reader Retention BatchApi System

/-- A request on an open file that leaves the pair headers alone. -/
def Plain : Call → Prop
  | .read _ _ _ | .size _ | .truncate _ _ | .sync _ | .provision _ => True
  | .write _ offset _ => 32 ≤ offset
  | _ => False

/-- The error that a reply stands for: the request failed, or transferred less
than was asked. A manifest slot may be short. -/
def failure : (call : Call) → Reply call → Option Error
  | _, .error code => some (.errno code)
  | .read file offset length, .ok bytes =>
      if bytes.length = length ∨ file = .database ∧ (offset = 32 ∨ offset = 96) ∧ length = 64 then none
      else some .invalidDatabase
  | .write _ _ bytes, .ok count => if count = bytes.length then none else some (.errno .eio)
  | _, .ok _ => none

/-- Nothing is asked after a request that failed. -/
def asking (may : Call → Prop) : Discipline Reply (Option Error) :=
  ⟨fun failed call => failed = none ∧ may call, fun _ call reply => failure call reply⟩

/-- Only such requests, the error of the first that fails, and this of what is
returned. -/
structure Asks {α : Type} (may : Call → Prop) (holds : α → Prop) (program : Io α) : Prop where
  asks : Prog.Follows (asking may) (fun failed result => (∀ value, result = .ok value → holds value) ∧
    ∀ error, failed = some error → error ≠ .endOfData ∧ result = .error error) none program

section Rules
variable {α β : Type} {may : Call → Prop} {holds : α → Prop} {holds' : β → Prop}

theorem Asks.follows {program : Io α} (asks : Asks may holds program) :
    Prog.Follows (Discipline.still may) (fun _ result => ∀ value, result = .ok value → holds value) () program := by
  refine follows_mono (follows_simulate (fun _ _ => True) asks.asks trivial ?_) fun _ _ here => ?_
  · rintro failed ⟨⟩ call - ⟨-, allowed⟩
    exact ⟨allowed, fun _ => trivial⟩
  · obtain ⟨_, -, kept, -⟩ := here
    exact kept

theorem asks_pure {value : α} (here : holds value) : Asks may holds (pure value : Io α) :=
  ⟨fun _ same => (by cases same; exact here), fun _ failed => by cases failed⟩

theorem asks_fail (error : Error) : Asks may holds (Io.fail error : Io α) :=
  ⟨fun _ same => (by cases same), fun _ failed => by cases failed⟩

theorem asks_bind {first : Io α} {next : α → Io β} (front : Asks may holds first)
    (rest : ∀ value, holds value → Asks may holds' (next value)) : Asks may holds' (first >>= next) := by
  refine ⟨follows_bind front.asks fun failed result here => ?_⟩
  cases result with
  | error error =>
      refine ⟨fun _ same => (by cases same), fun fault told => ?_⟩
      obtain ⟨other, same⟩ := here.2 fault told
      cases same
      exact ⟨other, rfl⟩
  | ok value =>
      cases failed with
      | none => exact (rest value (here.1 value rfl)).asks
      | some error => cases (here.2 error rfl).2

theorem asks_mono {program : Io α} {weaker : α → Prop} (asks : Asks may holds program)
    (implied : ∀ value, holds value → weaker value) : Asks may weaker program :=
  ⟨follows_mono asks.asks fun _ _ here => ⟨fun value same => implied value (here.1 value same), here.2⟩⟩

theorem asks_require (condition : Prop) [Decidable condition] (error : Error) :
    Asks may (fun _ => condition) (Io.require condition error) := by
  unfold Io.require
  split
  · rename_i here
    exact asks_pure here
  · exact asks_fail error

theorem asks_perform (call : Call) (allowed : may call) (whole : ∀ answer, failure call (.ok answer) = none) :
    Asks may (fun _ => True) (Io.perform call) :=
  ⟨⟨rfl, allowed⟩, fun reply => by
    cases reply with
    | ok answer => exact ⟨fun _ _ => trivial, fun error failed => by cases (whole answer).symm.trans failed⟩
    | error code =>
        refine ⟨fun _ _ => trivial, fun error failed => ?_⟩
        have told : failure call (.error code) = some (.errno code) := by cases call <;> rfl
        cases told.symm.trans failed
        exact ⟨nofun, rfl⟩⟩

-- A slot may be short.
theorem asks_slot {offset : Nat} (slot : offset = 32 ∨ offset = 96) :
    Asks Plain (fun _ => True) (fileRead .database offset 64) :=
  asks_perform (.read .database offset 64) trivial fun _ => if_pos (.inr ⟨rfl, slot, rfl⟩)

theorem asks_exact {file : File} {offset length : Nat} (allowed : may (.read file offset length)) :
    Asks may (fun _ => True) (readExact file offset length) := by
  refine ⟨⟨rfl, allowed⟩, fun reply => ?_⟩
  cases reply with
  | error code => exact ⟨fun _ _ => trivial, fun error failed => (by cases failed; exact ⟨nofun, rfl⟩)⟩
  | ok bytes =>
      change Prog.Follows _ _ _ (Prog.bind (Io.require (bytes.length = length) .invalidDatabase) _)
      unfold Io.require
      split
      · rename_i whole
        exact ⟨fun _ _ => trivial, fun error failed => by cases (if_pos (.inl whole)).symm.trans failed⟩
      · refine ⟨fun _ _ => trivial, fun error failed => ?_⟩
        change ite _ none (some Error.invalidDatabase) = some error at failed
        split at failed
        · cases failed
        · cases failed
          exact ⟨nofun, rfl⟩

theorem asks_read_exact (file : File) (offset length : Nat) : Asks Plain (fun _ => True) (readExact file offset length) :=
  asks_exact trivial

theorem asks_write {file : File} {offset : Nat} {bytes : Bytes} (allowed : may (.write file offset bytes)) :
    Asks may (fun _ => True) (writeExact file offset bytes) := by
  refine ⟨⟨rfl, allowed⟩, fun reply => ?_⟩
  cases reply with
  | error code => exact ⟨fun _ _ => trivial, fun error failed => (by cases failed; exact ⟨nofun, rfl⟩)⟩
  | ok count =>
      change Prog.Follows _ _ _ (Io.require (count = bytes.length) (.errno .eio))
      unfold Io.require
      split
      · rename_i whole
        exact ⟨fun _ _ => trivial, fun error failed => by cases (if_pos whole).symm.trans failed⟩
      · rename_i cut
        refine ⟨fun _ _ => trivial, fun error failed => ?_⟩
        cases (if_neg cut).symm.trans failed
        exact ⟨nofun, rfl⟩

theorem asks_sync (file : File) : Asks Plain (fun _ => True) (fileSync file) := asks_perform (.sync file) trivial fun _ => rfl

theorem asks_truncate (file : File) (size : Nat) : Asks Plain (fun _ => True) (fileTruncate file size) :=
  asks_perform (.truncate file size) trivial fun _ => rfl

theorem asks_provision (file : File) : Asks Plain (fun _ => True) (fileProvision file) := asks_perform (.provision file) trivial fun _ => rfl

theorem asks_size (file : File) : Asks Plain (fun _ => True) (fileSize file) := asks_perform (.size file) trivial fun _ => rfl

theorem asks_ite {condition : Prop} [Decidable condition] {first second : Io α} (left : Asks may holds first)
    (right : Asks may holds second) : Asks may holds (if condition then first else second) := by
  split
  · exact left
  · exact right

-- A caller that looks at the error itself, for the end of the data only.
theorem asks_examine {first : Io α} {next : Except Error α → Io β} (front : Asks may holds first)
    (rest : ∀ result, (∀ value, result = .ok value → holds value) → Asks may holds' (next result))
    (passes : ∀ error, error ≠ .endOfData → next (.error error) = Io.fail error) :
    Asks may holds' (first.examine next) := by
  refine ⟨follows_bind front.asks fun failed result here => ?_⟩
  cases failed with
  | none => exact (rest result here.1).asks
  | some error =>
      obtain ⟨other, rfl⟩ := here.2 error rfl
      rw [passes error other]
      exact ⟨fun _ same => (by cases same), fun fault told => by cases told; exact ⟨other, rfl⟩⟩

end Rules

section Readers

theorem asks_pair_header {may : Call → Prop} {file : File} (magic : Bytes)
    (allowed : ∀ offset length, may (.read file offset length)) : Asks may (fun _ => True) (pairHeader file magic) := by
  unfold pairHeader
  refine asks_bind (asks_exact (allowed _ _)) fun front _ => asks_bind (asks_require _ _) fun _ _ =>
    asks_bind (asks_require _ _) fun _ _ => asks_bind (asks_exact (allowed _ _)) fun back _ =>
    asks_bind (asks_require _ _) fun _ _ => asks_pure trivial

theorem asks_parsed (parsed : Option SegmentInfo) : Asks Plain (fun _ => True)
    (match parsed with | some segment => pure segment | none => Io.fail .invalidDatabase : Io SegmentInfo) := by
  cases parsed with
  | none => exact asks_fail _
  | some segment => exact asks_pure trivial

theorem asks_segment (file : File) (offset limit : Nat) : Asks Plain (fun _ => True) (readSegment file offset limit) := by
  unfold readSegment
  refine asks_bind (asks_require _ _) fun _ _ => asks_bind (asks_read_exact _ _ _) fun front _ => ?_
  simp only
  split
  · exact asks_bind (asks_require _ _) fun _ _ => asks_bind (asks_read_exact _ _ _) fun back _ => asks_parsed _
  · exact asks_bind (asks_require _ _) fun _ _ => asks_parsed _

theorem asks_frame (file : File) (offset limit sequence : Nat) :
    Asks Plain (fun _ => True) (readFrame file offset limit sequence) := by
  unfold readFrame
  refine asks_bind (asks_require _ _) fun _ _ => asks_bind (asks_read_exact _ _ _) fun header _ =>
    asks_bind (asks_require _ _) fun _ _ => asks_bind (asks_require _ _) fun _ _ =>
    asks_bind (asks_read_exact _ _ _) fun rest _ => asks_bind (asks_require _ _) fun _ _ => asks_pure trivial

theorem asks_complete {α : Type} {reading : Io α} (asks : Asks Plain (fun _ => True) reading) :
    Asks Plain (fun _ => True) (complete reading) := by
  refine asks_examine asks (fun result _ => ?_) fun error other => ?_
  · cases result with
    | ok value => exact asks_pure trivial
    | error error => cases error <;> exact asks_fail _
  · cases error <;> first | rfl | exact absurd rfl other

theorem asks_forward (limit steps current : Nat) : Asks Plain (fun _ => True) (forwardAt limit steps current) := by
  induction steps generalizing current with
  | zero => exact asks_bind (asks_segment _ _ _) fun _ _ => asks_pure trivial
  | succ steps ih => exact asks_bind (asks_segment _ _ _) fun _ _ => ih _

theorem asks_segment_at (limit generation tail target : Nat) :
    Asks Plain (fun _ => True) (segmentAt limit generation tail target) := by
  have walk : ∀ fuel n current, Asks Plain (fun _ => True) (segmentWalk limit target fuel n current) := by
    intro fuel
    induction fuel with
    | zero => exact fun n current => asks_fail _
    | succ fuel ih =>
        intro n current
        rw [segmentWalk]
        split
        · exact asks_fail _
        refine asks_bind (asks_segment _ _ _) fun segment _ => ?_
        split
        · exact asks_pure trivial
        split
        · exact asks_forward _ _ _
        split
        · exact ih _ _
        · exact ih _ _
  exact walk _ _ _

theorem chose_slot {index size : Nat} {slot : Bytes} {before : Option Manifests} {m : Manifests}
    (found : chooseSlot index slot size before = some m) : before = some m ∨ slotManifest index slot size = some m := by
  unfold chooseSlot at found
  split at found
  · exact .inl found
  split at found
  · exact .inl found
  · rename_i accepted
    exact .inr (accepted.trans found)
  · rename_i accepted
    split at found
    · exact .inr (accepted.trans found)
    · exact .inl found

/-- Whatever the slots hold, the data ends behind them. -/
theorem chosen_above {even odd : Bytes} {size : Nat} {m : Manifests}
    (found : chooseSlot 1 odd size (chooseSlot 0 even size none) = some m) : 160 ≤ m.dataEnd := by
  have slot : ∃ index slot, slotManifest index slot size = some m := by
    rcases chose_slot found with first | second
    · rcases chose_slot first with none | second
      · cases none
      · exact ⟨_, _, second⟩
    · exact ⟨_, _, second⟩
  obtain ⟨index, slot, accepted⟩ := slot
  exact Nat.le_trans (SlotLaws.slot_bounds accepted).low (SlotLaws.slot_bounds accepted).root

theorem asks_manifests (size : Nat) : Asks Plain (fun m => 160 ≤ m.dataEnd) (readManifests size) := by
  unfold readManifests
  split
  · exact asks_pure (Nat.le_refl _)
  refine asks_bind (asks_slot (.inl rfl)) fun even _ => asks_bind (asks_slot (.inr rfl)) fun odd _ => ?_
  cases found : chooseSlot 1 odd size (chooseSlot 0 even size none) with
  | some m => exact asks_pure (chosen_above found)
  | none => exact asks_bind (asks_require _ _) fun _ _ => asks_pure (Nat.le_refl _)

theorem asks_walk (dataEnd : Nat) (enabled : Bool) (remaining n : Nat) (walk : Walk) :
    Asks Plain (fun _ => True) (walkSegments dataEnd enabled remaining n walk) := by
  induction remaining generalizing n walk with
  | zero => exact asks_pure trivial
  | succ remaining ih =>
      exact asks_bind (asks_segment _ _ _) fun _ _ => asks_bind (asks_require _ _) fun _ _ =>
        asks_bind (asks_require _ _) fun _ _ => ih _ _

theorem asks_last_time (limit fuel position sequence time : Nat) :
    Asks Plain (fun _ => True) (lastFrameTime limit fuel position sequence time) := by
  induction fuel generalizing position sequence time with
  | zero => exact asks_pure trivial
  | succ fuel ih =>
      rw [lastFrameTime]
      split
      · exact asks_bind (asks_complete (asks_frame _ _ _ _)) fun _ _ => ih _ _ _
      · exact asks_pure trivial

theorem asks_check (generation dataEnd last tail lastTime : Nat) (hasTime : Bool) (state : RetentionState) :
    Asks Plain (fun _ => True) (checkSegments generation dataEnd last tail lastTime hasTime state) := by
  unfold checkSegments
  refine asks_bind (asks_walk _ _ _ _ _) fun walk _ => asks_bind (asks_require _ _) fun _ _ => ?_
  split
  · exact asks_pure trivial
  split
  · exact asks_bind (asks_require _ _) fun _ _ => asks_pure trivial
  split
  · exact asks_bind (asks_last_time _ _ _ _ _) fun _ _ => asks_pure trivial
  · exact asks_pure trivial

theorem asks_stale (installed size : Nat) : Asks Plain (fun _ => True) (staleSequence installed size) := by
  unfold staleSequence
  split
  · exact asks_bind (asks_read_exact _ _ _) fun _ _ => asks_bind (asks_require _ _) fun _ _ => asks_pure trivial
  · exact asks_pure trivial

theorem asks_scan (size : Nat) (stale : Bool) (fuel : Nat) (scan : WalScan) (behind : 32 ≤ scan.offset) :
    Asks Plain (fun last => 32 ≤ last.offset) (scanWal size stale fuel scan) := by
  induction fuel generalizing scan with
  | zero => exact asks_pure behind
  | succ fuel ih =>
      rw [scanWal]
      split
      · refine asks_examine (asks_frame _ _ _ _) (fun result _ => ?_) fun error other => ?_
        · cases result with
          | ok frame => exact ih _ (Nat.le_trans behind (Nat.le_add_right _ _))
          | error error =>
              cases error
              case endOfData =>
                simp only
                split
                · exact asks_fail _
                · exact asks_pure behind
              all_goals exact asks_fail _
        · cases error <;> first | rfl | exact absurd rfl other
      · exact asks_pure behind

/-- What validation promises about where the handle will write. -/
def Placed (v : Validated) : Prop := 160 ≤ v.manifests.dataEnd ∧ 32 ≤ v.walOffset

theorem asks_validate : Asks Plain Placed validatePair := by
  unfold validatePair
  refine asks_bind (asks_pair_header _ fun _ _ => trivial) fun header _ =>
    asks_bind (asks_pair_header _ fun _ _ => trivial) fun walHeader _ =>
    asks_bind (asks_require _ _) fun _ _ => asks_bind (asks_size _) fun databaseSize _ =>
    asks_bind (asks_manifests _) fun m above => asks_bind (asks_check _ _ _ _ _ _ _) fun checked _ =>
    asks_bind (asks_size _) fun size _ => asks_bind (asks_require _ _) fun _ _ =>
    asks_bind (asks_stale _ _) fun stale _ =>
    asks_bind (asks_scan _ _ _ _ (Nat.le_refl _)) fun scan behind =>
    asks_bind (asks_require _ _) fun _ _ => asks_bind (asks_require _ _) fun _ _ => asks_pure ⟨above, ?_⟩
  rw [Validated.walOffset]
  split
  · exact Nat.le_refl _
  · exact behind

end Readers

section Writers

theorem asks_publish (state : RetentionState) (count dataEnd last time tail root phase : Nat) :
    Asks Plain (fun _ => True) (publishRetention state count dataEnd last time tail root phase) := by
  unfold publishRetention
  split
  · exact asks_fail _
  · exact asks_bind (asks_write (Nat.le_add_right _ _)) fun _ _ => asks_bind (asks_sync _) fun _ _ => asks_pure trivial

theorem asks_expire_frames (limit cutoff fuel position sequence : Nat) (expires : Bool) :
    Asks Plain (fun _ => True) (expireFrames limit cutoff fuel position sequence expires) := by
  induction fuel generalizing position sequence expires with
  | zero => exact asks_pure trivial
  | succ fuel ih =>
      rw [expireFrames]
      split
      · exact asks_bind (asks_complete (asks_frame _ _ _ _)) fun _ _ => ih _ _ _
      · exact asks_pure trivial

theorem asks_expires (offset : Nat) (segment : SegmentInfo) (cutoff : Nat) :
    Asks Plain (fun _ => True) (segmentExpires offset segment cutoff) := by
  unfold segmentExpires
  split
  · exact asks_pure trivial
  · exact asks_bind (asks_expire_frames _ _ _ _ _ _) fun _ _ => asks_bind (asks_require _ _) fun _ _ => asks_pure trivial

theorem asks_copy_frames (limit fuel position destination sequence : Nat) (behind : 32 ≤ destination) :
    Asks Plain (fun ends => destination ≤ ends.1) (copyFrames limit fuel position destination sequence) := by
  induction fuel generalizing position destination sequence with
  | zero => exact asks_pure (Nat.le_refl _)
  | succ fuel ih =>
      rw [copyFrames]
      split
      · refine asks_bind (asks_complete (asks_frame _ _ _ _)) fun frame _ => asks_bind (asks_write behind) fun _ _ => ?_
        exact asks_mono (ih _ _ _ (Nat.le_trans behind (Nat.le_add_right _ _))) fun _ above =>
          Nat.le_trans (Nat.le_add_right _ _) above
      · exact asks_pure (Nat.le_refl _)

theorem asks_copy_segment (offset : Nat) (segment : SegmentInfo) (copy : Copy) (behind : 32 ≤ copy.destination) :
    Asks Plain (fun copied => copy.destination ≤ copied.destination) (copySegment offset segment copy) := by
  unfold copySegment
  refine asks_bind (asks_read_exact _ _ _) fun header _ => asks_bind (asks_write behind) fun _ _ =>
    asks_bind (asks_copy_frames _ _ _ _ _ (Nat.le_trans behind (Nat.le_add_right _ _))) fun ends above =>
    asks_bind (asks_require _ _) fun _ _ => asks_pure (Nat.le_trans (Nat.le_add_right _ _) above)

theorem asks_copy_loop (limit : Nat) (filter : Bool) (cutoff fuel offset : Nat) (copy : Copy)
    (behind : 32 ≤ copy.destination) :
    Asks Plain (fun copied => copy.destination ≤ copied.destination) (copyLoop limit filter cutoff fuel offset copy) := by
  induction fuel generalizing offset copy with
  | zero => exact asks_pure (Nat.le_refl _)
  | succ fuel ih =>
      rw [copyLoop]
      split
      · refine asks_bind (asks_segment _ _ _) fun segment _ => ?_
        refine @asks_bind _ _ Plain (fun _ => True) _ _ _ ?_ fun expires _ =>
          @asks_bind _ _ Plain (fun copied : Copy => copy.destination ≤ copied.destination) _ _ _ ?_ fun copied above =>
          asks_mono (ih _ copied (Nat.le_trans behind above)) fun _ further => Nat.le_trans above further
        · unfold copyExpires
          split
          · exact asks_expires _ _ _
          · exact asks_pure trivial
        · unfold copyUnless
          split
          · exact asks_pure (Nat.le_refl _)
          · exact asks_copy_segment _ _ _ behind
      · exact asks_pure (Nat.le_refl _)

theorem asks_copy (root dataEnd destination : Nat) (filter : Bool) (cutoff : Nat) (behind : 32 ≤ destination) :
    Asks Plain (fun ends => destination ≤ ends.1) (copySegments root dataEnd destination filter cutoff) :=
  asks_bind (asks_copy_loop _ _ _ _ _ _ behind) fun _ above => asks_bind (asks_sync _) fun _ _ => asks_pure above

theorem asks_back (state : RetentionState) (count dataEnd last time tail : Nat) (above : 160 ≤ dataEnd) :
    Asks Plain (fun finished => 160 ≤ finished.dataEnd) (copyBack state count dataEnd last time tail) := by
  unfold copyBack
  split
  · exact asks_bind (asks_copy _ _ _ _ _ (by decide)) fun _ further => asks_bind (asks_publish _ _ _ _ _ _ _ _)
      fun _ _ => asks_pure further
  · exact asks_pure above

theorem asks_finish (state : RetentionState) (count dataEnd last time tail : Nat) (above : 160 ≤ dataEnd) :
    Asks Plain (fun finished => 160 ≤ finished.dataEnd) (finishRetention state count dataEnd last time tail) := by
  unfold finishRetention
  exact asks_bind (asks_require _ _) fun _ _ => asks_bind (asks_back _ _ _ _ _ _ above) fun front further =>
    asks_bind (asks_truncate _ _) fun _ _ => asks_bind (asks_sync _) fun _ _ =>
    asks_bind (asks_publish _ _ _ _ _ _ _ _) fun _ _ => asks_pure further

/-- A handle of two open files that writes behind their pair headers. -/
structure Usable (db : Batches) : Prop where
  database : db.database = true
  wal : db.wal = true
  behind : 32 ≤ db.walEnd
  above : 160 ≤ db.dataEnd

theorem asks_recover {v : Validated} (placed : Placed v) : Asks Plain Usable (recoverPair v) := by
  unfold recoverPair
  have finish : Asks Plain (fun finished => 160 ≤ finished.dataEnd) (finishPair v) := by
    unfold finishPair
    simp only
    split
    · exact asks_finish _ _ _ _ _ _ placed.1
    · exact asks_pure placed.1
  refine asks_bind (asks_provision _) fun _ _ => asks_bind (asks_provision _) fun _ _ =>
    asks_bind finish fun finished above => ?_
  have usable : Usable (v.handle finished) := ⟨rfl, rfl, placed.2, above⟩
  split
  · exact asks_bind (asks_truncate _ _) fun _ _ => asks_bind (asks_sync _) fun _ _ => asks_pure usable
  · exact asks_pure usable

end Writers

section Calls
variable {α β : Type} {db : Batches}

/-- A call that makes plain requests only, and leaves a usable handle. -/
structure Works (program : Op α) : Prop where
  follows : Prog.Follows (Discipline.still Plain) (fun _ result => Usable result.2) () program

theorem works_refuse (usable : Usable db) (error : Error) : Works (refuse db error : Op α) := ⟨usable⟩

theorem works_succeed (usable : Usable db) (value : α) : Works (succeed db value) := ⟨usable⟩

theorem works_attempt {holds : α → Prop} {step : Io α} {next : α → Op β} (usable : Usable db) (asks : Asks Plain holds step)
    (rest : ∀ value, holds value → Works (next value)) : Works (attempt db step next) := by
  refine ⟨follows_bind asks.follows fun _ result here => ?_⟩
  cases result with
  | error error => exact usable
  | ok value => exact (rest value (here value rfl)).follows

theorem works_bind {first : Op α} {next : Except Error α × Batches → Op β} (works : Works first)
    (rest : ∀ result, Usable result.2 → Works (next result)) : Works (Prog.bind first next : Op β) :=
  ⟨follows_bind works.follows fun _ result here => (rest result here).follows⟩

-- The cursor and the flags of a handle do not matter.
theorem Usable.cursor (usable : Usable db) (source : Batches) : Usable (copyCursor db source) := ⟨usable.1, usable.2, usable.3, usable.4⟩

theorem Usable.reset (usable : Usable db) : Usable (resetCursor db) := ⟨usable.1, usable.2, usable.3, usable.4⟩

theorem Usable.poisoned (usable : Usable db) : Usable { db with failed := true } := ⟨usable.1, usable.2, usable.3, usable.4⟩

theorem works_append (usable : Usable db) (records : List Record) (scratchSize : Nat) :
    Works (batchesAppend db records scratchSize) := by
  unfold batchesAppend
  split
  · exact works_refuse usable _
  split
  · exact works_refuse usable _
  split
  · exact works_refuse usable _
  split
  · exact works_refuse usable _
  split
  · exact works_refuse usable _
  split
  · exact works_refuse usable _
  have write : Asks Plain (fun _ => True) (writeFrame db records) := by
    have behind := usable.behind
    exact asks_bind (asks_write behind) fun _ _ => asks_bind (asks_sync _) fun _ _ =>
      asks_bind (asks_write (Nat.le_trans behind (Nat.le_add_right _ _))) fun _ _ => asks_sync _
  have grown : Usable (appended db records) :=
    ⟨usable.database, usable.wal, Nat.le_trans usable.behind (Nat.le_add_right _ _), usable.above⟩
  exact works_attempt usable.poisoned write fun _ _ => works_succeed grown _

theorem asks_links : Asks Plain (fun _ => True) (checkpointLinks db) := by
  unfold checkpointLinks
  have skip : Asks Plain (fun _ => True) (skipOffset db) := by
    unfold skipOffset
    simp only
    split
    · exact asks_bind (asks_segment_at _ _ _ _) fun _ _ => asks_pure trivial
    · exact asks_pure trivial
  refine asks_bind skip fun _ _ => ?_
  split
  · exact asks_bind (asks_segment _ _ _) fun _ _ => asks_pure trivial
  · exact asks_pure trivial

theorem asks_upgrade : Asks Plain (fun _ => True) (upgradeLegacy db) := by
  unfold upgradeLegacy
  split
  · exact asks_bind (asks_write (Nat.le_refl _)) fun _ _ => asks_sync _
  · exact asks_pure trivial

theorem asks_install_frames (limit destination fuel offset sequence : Nat) (behind : 32 ≤ destination) :
    Asks Plain (fun _ => True) (installFrames limit destination fuel offset sequence) := by
  induction fuel generalizing offset sequence with
  | zero => exact asks_pure trivial
  | succ fuel ih =>
      rw [installFrames]
      split
      · exact asks_bind (asks_complete (asks_frame _ _ _ _)) fun _ _ =>
          asks_bind (asks_write (Nat.le_trans behind (Nat.le_add_right _ _))) fun _ _ => ih _ _
      · exact asks_pure trivial

theorem asks_install (above : 160 ≤ db.dataEnd) (skip : Nat) : Asks Plain (fun _ => True) (installSegment db skip) := by
  unfold installSegment
  exact asks_bind (asks_write (show 32 ≤ db.dataEnd by omega)) fun _ _ => asks_bind (asks_install_frames _ _ _ _ _ (by omega)) fun _ _ =>
    asks_bind (asks_require _ _) fun _ _ => asks_bind (asks_sync _) fun _ _ =>
    asks_bind (asks_write (Nat.le_add_right _ _)) fun _ _ => asks_bind (asks_sync _) fun _ _ => asks_pure trivial

theorem works_checkpoint (usable : Usable db) (scratchSize : Nat) : Works (batchesCheckpoint db scratchSize) := by
  unfold batchesCheckpoint
  split
  · exact works_refuse usable _
  split
  · exact works_succeed usable _
  split
  · exact works_refuse usable _
  split
  · exact works_refuse usable _
  refine works_attempt usable asks_links fun links _ => ?_
  obtain ⟨skip, priorMax⟩ := links
  have marked := usable.poisoned
  refine works_attempt marked asks_upgrade fun _ _ => ?_
  have modern : Usable { db with failed := true, legacy := false } := ⟨usable.1, usable.2, usable.3, usable.4⟩
  refine works_attempt modern (asks_install modern.above _) fun sequence _ => ?_
  have installed : Usable (installedHandle { db with failed := true, legacy := false } priorMax sequence) :=
    ⟨usable.1, usable.2, usable.3, Nat.le_trans usable.above (Nat.le_trans (Nat.le_add_right _ _) (Nat.le_add_right _ _))⟩
  have reclaim : Asks Plain (fun _ => True) reclaimWal := asks_bind (asks_truncate _ _) fun _ _ => asks_sync _
  refine works_attempt installed reclaim fun _ _ => ?_
  have reclaimed : Usable { installedHandle { db with failed := true, legacy := false } priorMax sequence with
      walEnd := 32, walOrdered := true, failed := false } :=
    ⟨installed.database, installed.wal, Nat.le_refl _, installed.above⟩
  exact works_succeed reclaimed _

theorem asks_survey (dataEnd cutoff fuel offset : Nat) (survey : Survey) :
    Asks Plain (fun _ => True) (surveySegments dataEnd cutoff fuel offset survey) := by
  induction fuel generalizing offset survey with
  | zero => exact asks_pure trivial
  | succ fuel ih =>
      rw [surveySegments]
      split
      · exact asks_bind (asks_segment _ _ _) fun _ _ => asks_bind (asks_expires _ _ _) fun _ _ => ih _ _
      · exact asks_pure trivial

theorem asks_relocate (above : 160 ≤ db.dataEnd) (segments cutoff : Nat) :
    Asks Plain (fun finished => 160 ≤ finished.dataEnd) (relocate db segments cutoff) := by
  have behind : 32 ≤ db.dataEnd := by omega
  unfold relocate
  refine asks_bind (asks_publish _ _ _ _ _ _ _ _) fun _ _ => ?_
  have copied := asks_copy 160 db.dataEnd db.dataEnd true cutoff behind
  refine asks_bind copied fun ends further => ?_
  exact asks_bind (asks_publish _ _ _ _ _ _ _ _) fun _ _ => asks_finish _ _ _ _ _ _ (Nat.le_trans above further)

theorem asks_cursor : Asks Plain (fun delivery => Usable db → Usable delivery.db) (readCursor db) := by
  have kept : ∀ frame sequence cursor segmentEnd inWal, Usable db →
      Usable (delivered db frame sequence cursor segmentEnd inWal).db :=
    fun _ _ _ _ _ usable => ⟨usable.1, usable.2, usable.3, usable.4⟩
  have wal : ∀ cursor expected, Asks Plain (fun delivery => Usable db → Usable delivery.db) (readWalCursor db cursor expected) := by
    intro cursor expected
    unfold readWalCursor
    split
    · exact asks_fail _
    · exact asks_bind (asks_frame _ _ _ _) fun _ _ => asks_pure (kept _ _ _ _ _)
  have installed : ∀ cursor segmentEnd expected,
      Asks Plain (fun delivery => Usable db → Usable delivery.db) (readInstalledCursor db cursor segmentEnd expected) :=
    fun _ _ _ => asks_bind (asks_complete (asks_frame _ _ _ _)) fun _ _ => asks_pure (kept _ _ _ _ _)
  unfold readCursor
  split
  · exact wal _ _
  split
  · exact wal _ _
  split
  · exact asks_bind (asks_segment _ _ _) fun _ _ => asks_bind (asks_require _ _) fun _ _ => installed _ _ _
  · exact installed _ _ _

theorem asks_relocate_cursor (wanted fuel : Nat) (usable : Usable db) :
    Asks Plain Usable (relocateCursor wanted fuel db) := by
  induction fuel generalizing db with
  | zero => exact asks_fail _
  | succ fuel ih =>
      have atEnd : Usable (positionWal db db.walEnd (next64 db.sequence)) := ⟨usable.1, usable.2, usable.3, usable.4⟩
      rw [relocateCursor]
      split
      · exact asks_pure atEnd
      refine asks_examine asks_cursor (fun result here => ?_) fun error other => ?_
      · cases result with
        | error error =>
            cases error
            case endOfData => exact asks_pure atEnd
            all_goals exact asks_fail _
        | ok delivery =>
            simp only
            split
            · exact asks_pure usable
            · exact ih (here delivery rfl usable)
      · cases error <;> first | rfl | exact absurd rfl other

theorem works_expire (usable : Usable db) (cutoff scratchSize : Nat) :
    Works (batchesExpireBefore db cutoff scratchSize) := by
  unfold batchesExpireBefore
  split
  · exact works_refuse usable _
  have survey := asks_survey db.dataEnd cutoff (db.dataEnd - 160) 160 ⟨0, 0, 0⟩
  refine works_attempt usable survey fun survey _ => ?_
  split
  · exact works_succeed usable _
  split
  · exact works_refuse usable _
  split
  · exact works_refuse usable _
  have marked := usable.poisoned
  refine works_attempt marked (asks_relocate marked.above _ _) fun finished above => ?_
  refine works_attempt marked (asks_check _ _ _ _ _ _ _) fun checked _ => ?_
  refine works_attempt marked (asks_relocate_cursor _ _ ⟨usable.database, usable.wal, usable.behind, above⟩)
    fun cursor placed => ?_
  have sound : Usable { cursor with failed := false } := ⟨placed.1, placed.2, placed.3, placed.4⟩
  exact works_succeed sound _

theorem works_next (usable : Usable db) (capacity scratchSize : Nat) : Works (batchesNext db capacity scratchSize) := by
  unfold batchesNext
  split
  · exact works_refuse usable _
  refine works_attempt usable asks_cursor fun delivery _ => ?_
  split
  · exact works_refuse usable _
  · exact works_succeed (usable.cursor _) _

theorem asks_ordered : Asks Plain (fun _ => True) (orderedSequence db) := by
  have latest : ∀ segment, Asks Plain (fun _ => True) (latestSegment db segment) := by
    intro segment
    unfold latestSegment
    split
    · exact asks_segment _ _ _
    · exact asks_pure trivial
  unfold orderedSequence
  split
  · exact asks_pure trivial
  split
  · refine asks_bind (asks_segment_at _ _ _ _) fun found _ => ?_
    obtain ⟨offset, segment⟩ := found
    exact asks_bind (latest segment) fun last _ => asks_ite (asks_pure trivial) (asks_pure trivial)
  · exact asks_pure trivial

theorem asks_match (range : Range) (capacity ordered fuel : Nat) (cursor : Batches) :
    Asks Plain (fun _ => True) (nextMatch db range capacity ordered fuel cursor) := by
  induction fuel generalizing cursor with
  | zero => exact asks_fail _
  | succ fuel ih =>
      rw [nextMatch]
      refine asks_bind asks_cursor fun delivery _ => ?_
      simp only
      split
      · split
        · exact asks_fail _
        · exact asks_pure trivial
      split
      · exact asks_fail _
      · exact ih _

theorem works_range (usable : Usable db) (range : Range) (capacity scratchSize : Nat) :
    Works (batchesNextRange db range capacity scratchSize) := by
  unfold batchesNextRange
  split
  · exact works_refuse usable _
  split
  · exact works_refuse usable _
  split
  · exact works_refuse usable _
  split
  · exact works_refuse usable _
  exact works_attempt usable asks_ordered fun ordered _ => works_attempt usable (asks_match _ _ _ _ _) fun found _ =>
    works_succeed (usable.cursor _) _

theorem works_aggregate_loop (usable : Usable db) (range : Range) (scratchSize fuel : Nat) (cursor : Batches)
    (placed : Usable cursor) (aggregate : Aggregate) :
    Works (aggregateLoop db range scratchSize fuel cursor aggregate) := by
  induction fuel generalizing cursor aggregate with
  | zero => exact works_refuse usable _
  | succ fuel ih =>
      rw [aggregateLoop]
      refine works_bind (works_range placed range maxRecords scratchSize) fun result here => ?_
      obtain ⟨result, moved⟩ := result
      cases result with
      | ok found => exact ih _ here _
      | error error =>
          cases error
          case endOfData => exact works_succeed usable _
          all_goals exact works_refuse usable _

theorem works_aggregate (usable : Usable db) (range : Range) (scratchSize : Nat) :
    Works (batchesAggregateRange db range scratchSize) := by
  unfold batchesAggregateRange
  split
  · exact works_refuse usable _
  split
  · exact works_refuse usable _
  split
  · exact works_refuse usable _
  · exact works_aggregate_loop usable _ _ _ _ usable.reset _

theorem asks_seek_frames (from_us limit fuel : Nat) (cursor : Batches) :
    Asks Plain (fun _ => True) (seekFrames from_us limit fuel cursor) := by
  induction fuel generalizing cursor with
  | zero => exact asks_pure trivial
  | succ fuel ih =>
      rw [seekFrames]
      split
      · refine asks_examine asks_cursor (fun result _ => ?_) fun error other => ?_
        · cases result with
          | error error =>
              cases error
              case endOfData => exact asks_pure trivial
              all_goals exact asks_fail _
          | ok delivery =>
              simp only
              split
              · exact asks_pure trivial
              · exact ih _
        · cases error <;> first | rfl | exact absurd rfl other
      · exact asks_pure trivial

theorem asks_seek_leading (from_us count offset : Nat) (cursor : Batches) :
    Asks Plain (fun _ => True) (seekPrefix db from_us count offset cursor) := by
  induction count generalizing offset cursor with
  | zero => exact asks_pure trivial
  | succ count ih =>
      rw [seekPrefix]
      refine asks_bind (asks_segment _ _ _) fun segment _ => asks_bind (asks_seek_frames _ _ _ _) fun found _ => ?_
      obtain ⟨cursor, found⟩ := found
      simp only
      split
      · exact asks_pure trivial
      · exact ih _ _

theorem asks_seek_spans (from_us fuel low high : Nat) : Asks Plain (fun _ => True) (seekSpans db from_us fuel low high) := by
  induction fuel generalizing low high with
  | zero => exact asks_pure trivial
  | succ fuel ih =>
      rw [seekSpans]
      split
      · refine asks_bind (asks_segment_at _ _ _ _) fun found _ => ?_
        obtain ⟨offset, segment⟩ := found
        simp only
        split
        · exact ih _ _
        · exact ih _ _
      · exact asks_pure trivial

theorem asks_seek_suffix (from_us : Nat) (cursor : Batches) : Asks Plain (fun _ => True) (seekSuffix db from_us cursor) := by
  have start : ∀ low, Asks Plain (fun _ => True) (seekStart db cursor low) := by
    intro low
    unfold seekStart
    split
    · exact asks_bind (asks_segment_at _ _ _ _) fun _ _ => asks_pure trivial
    · exact asks_pure trivial
  unfold seekSuffix
  refine asks_bind (asks_seek_spans _ _ _ _) fun low _ => asks_bind (start low) fun cursor _ =>
    asks_bind (asks_seek_frames _ _ _ _) fun found _ => ?_
  obtain ⟨cursor, found⟩ := found
  simp only
  split
  · exact asks_pure trivial
  · exact asks_pure trivial

theorem works_seek (usable : Usable db) (from_us scratchSize : Nat) : Works (batchesSeek db from_us scratchSize) := by
  unfold batchesSeek
  split
  · exact works_refuse usable _
  refine works_attempt usable (asks_seek_leading _ _ _ _) fun found _ => ?_
  obtain ⟨cursor, found, offset⟩ := found
  cases found with
  | true => exact works_succeed (usable.cursor _) _
  | false =>
      refine works_attempt usable (asks_seek_suffix _ _) fun found _ => ?_
      obtain ⟨cursor, found⟩ := found
      cases found with
      | true => exact works_succeed (usable.cursor _) _
      | false => exact works_refuse (usable.cursor _) _

theorem works_answering {answer : α → Answer} {call : Op α} (works : Works call) : Works (answering answer call) :=
  works_bind works fun _ here => ⟨here⟩

end Calls

/-- Every call on an open handle but close makes plain requests only. -/
theorem operation_works {db : Batches} (usable : Usable db) {act : Act} (other : act ≠ .close) : Works (act.perform db) := by
  cases act with
  | openPair mode scratchSize =>
      have held : batchesOpen db mode scratchSize = refuse db (.errno .einval) := if_pos (.inl usable.database)
      exact works_answering (held ▸ works_refuse usable _)
  | close => exact absurd rfl other
  | append records scratchSize => exact works_answering (works_append usable _ _)
  | checkpoint scratchSize => exact works_answering (works_checkpoint usable _)
  | expireBefore cutoff scratchSize => exact works_answering (works_expire usable _ _)
  | next capacity scratchSize => exact works_answering (works_next usable _ _)
  | nextRange range capacity scratchSize => exact works_answering (works_range usable _ _ _)
  | seek from_us scratchSize => exact works_answering (works_seek usable _ _)
  | aggregateRange range scratchSize => exact works_answering (works_aggregate usable _ _)
  | rewind =>
      refine ⟨?_⟩
      change Usable (batchesRewind db).2
      unfold batchesRewind
      split
      · exact usable
      · exact usable.reset
  | getStatus => exact ⟨usable⟩

end Timelite.Requesting
