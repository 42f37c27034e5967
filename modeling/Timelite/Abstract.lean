import Timelite.Delivering

/-!
What the pair is for: an abstract database of installed segments and pending
batches, with the highest sequence number and the time floor. The calls that write,
close and reopen, undisturbed, refine it.
-/
namespace Timelite.Abstract
open ByteFile Program Durable Codec Backend BackendLaws Layout HeaderWalk WalLaws Spans Contents Crashes Databases
  Calls Appending Checkpointing Retaining Cursor Expiring Ranging BatchApi Opening Creating Atomicity System Refinement Soundness
  Observing Interrupting

def timesOfItem (item : Item) : List Nat := item.2.map (·.timestamp.toNat)

/-- The timestamps of a segment. -/
def segmentTimes (segment : List Item) : List Nat := segment.flatMap timesOfItem

/-- The encoded size of a batch. -/
def encodedSize (records : List Record) : Nat := 64 + records.length * 20

def batchesSize (batches : List Item) : Nat := (batches.map fun item => encodedSize item.2).sum

structure Model where
  installed : List (List Item)
  pending : List Item
  high : Nat
  floor : Nat
  deriving DecidableEq, Repr

namespace Model

def empty : Model := ⟨[], [], 0, 0⟩

def walSize (model : Model) : Nat := 32 + batchesSize model.pending

def installedSize (segments : List (List Item)) : Nat := (segments.map fun segment => 64 + batchesSize segment).sum

/-- The times of the records decrease, or start below the floor. -/
def Disordered (model : Model) (records : List Record) : Prop :=
  ¬ (records.map (·.timestamp.toNat)).Pairwise (· ≤ ·) ∨
    model.high ≠ 0 ∧ ∃ record ∈ records, record.timestamp.toNat < model.floor

instance (model : Model) (records : List Record) : Decidable (model.Disordered records) :=
  inferInstanceAs (Decidable (_ ∨ _))

/-- One pending batch more, with the next sequence number. -/
def append (model : Model) (records : List Record) (scratchSize : Nat) : Except Error Answer × Model :=
  if records.length = 0 ∨ maxRecords < records.length then (.error (.errno .einval), model)
  else if scratchSize < batchScratch then (.error .bufferTooSmall, model)
  else if model.Disordered records then (.error .outOfOrder, model)
  else if walCapacity < model.walSize + encodedSize records then (.error .walFull, model)
  else (.ok (.sequence (model.high + 1)),
    { model with
      pending := model.pending ++ [(model.high + 1, records)]
      high := model.high + 1
      floor := ((records.map (·.timestamp.toNat)).getLast?).getD model.floor })

/-- The pending batches become one segment. -/
def checkpoint (model : Model) (scratchSize : Nat) : Except Error Answer × Model :=
  if scratchSize < batchScratch then (.error .bufferTooSmall, model)
  else if model.pending = [] then (.ok .none, model)
  else if databaseCapacity < 160 + installedSize (model.installed ++ [model.pending]) then (.error .databaseFull, model)
  else (.ok .none, { model with installed := model.installed ++ [model.pending], pending := [] })

def survivors (model : Model) (cutoff : Nat) : List (List Item) :=
  model.installed.filter fun segment => !(segmentTimes segment).all fun time => decide (time < cutoff)

/-- The segments with no timestamp at or after the cutoff disappear; the survivors
need room for a second copy. -/
def expireBefore (model : Model) (cutoff scratchSize : Nat) : Except Error Answer × Model :=
  if scratchSize < batchScratch then (.error .bufferTooSmall, model)
  else if (model.survivors cutoff).length = model.installed.length then (.ok .none, model)
  else if databaseCapacity < 160 + installedSize model.installed + installedSize (model.survivors cutoff) then
    (.error .databaseFull, model)
  else (.ok .none, { model with installed := model.survivors cutoff })

/-- The batches, in order. -/
def items (model : Model) : List Item := model.installed.flatten ++ model.pending

/-- The batches that a reader at this sequence number has before it. -/
def ahead (model : Model) (position : Nat) : List Item := model.items.filter fun item => decide (position ≤ item.1)

/-- The matching records of a batch. -/
def matching (range : Range) (item : Item) : List Record := item.2.filter (inRange range)

/-- The next batch, and the reader behind it. -/
def next (model : Model) (position capacity scratchSize : Nat) : Except Error Answer × Nat :=
  if scratchSize < batchScratch then (.error .bufferTooSmall, position)
  else match (model.ahead position).head? with
    | none => (.error .endOfData, position)
    | some item =>
        if capacity < item.2.length then (.error .bufferTooSmall, position)
        else (.ok (.batch item.1 item.2), item.1 + 1)

/-- The next batch with a matching record, filtered, and the reader behind it. -/
def nextRange (model : Model) (position : Nat) (range : Range) (capacity scratchSize : Nat) : Except Error Answer × Nat :=
  match rangeRefusal range scratchSize with
  | some error => (.error error, position)
  | none =>
      match (model.ahead position).find? fun item => !(matching range item).isEmpty with
      | none => (.error .endOfData, position)
      | some item =>
          if capacity < (matching range item).length then (.error .bufferTooSmall, position)
          else (.ok (.batch item.1 (matching range item)), item.1 + 1)

/-- The reader before the first batch whose last record is not before the time, or behind all. -/
def seek (model : Model) (position from_us scratchSize : Nat) : Except Error Answer × Nat :=
  if scratchSize < batchScratch then (.error .bufferTooSmall, position)
  else match model.items.find? fun item => decide (from_us ≤ itemTime item) with
    | none => (.error .endOfData, model.high + 1)
    | some item => (.ok .none, item.1)

/-- The fold over all matching records. -/
def aggregateRange (model : Model) (range : Range) (scratchSize : Nat) : Except Error Answer :=
  if range.from_us > range.until_us ∨ range.filterSeries ≠ 0 ∧ range.filterSeries ≠ 1 then .error (.errno .einval)
  else if scratchSize < batchScratch then .error .bufferTooSmall
  else .ok (.aggregate ((model.items.flatMap fun item => (matching range item).map (·.value)).foldl Aggregate.note ⟨0, 0, 0⟩))

def status (model : Model) : Status where
  committedBatches := model.items.length
  installedBatches := model.installed.flatten.length
  pendingBatches := model.pending.length
  installedSegments := model.installed.length
  walBytes := model.walSize
  installedBytes := installedSize model.installed
  lastTimestamp := model.floor

/-- What a call on the open handle answers, and what it makes of the database and of its reader. -/
def perform (model : Model) (position : Nat) : Act → Except Error Answer × Model × Nat
  | .openPair _ _ => (.error (.errno .einval), model, position)
  | .close => (.ok .none, model, position)
  | .append records scratchSize => ((model.append records scratchSize).1, (model.append records scratchSize).2, position)
  | .checkpoint scratchSize => ((model.checkpoint scratchSize).1, (model.checkpoint scratchSize).2, position)
  | .expireBefore cutoff scratchSize =>
      ((model.expireBefore cutoff scratchSize).1, (model.expireBefore cutoff scratchSize).2, position)
  | .next capacity scratchSize =>
      ((model.next position capacity scratchSize).1, model, (model.next position capacity scratchSize).2)
  | .nextRange range capacity scratchSize =>
      ((model.nextRange position range capacity scratchSize).1, model, (model.nextRange position range capacity scratchSize).2)
  | .seek from_us scratchSize => ((model.seek position from_us scratchSize).1, model, (model.seek position from_us scratchSize).2)
  | .aggregateRange range scratchSize => (model.aggregateRange range scratchSize, model, position)
  | .rewind => (.ok .none, model, 1)
  | .getStatus => (.ok (.status model.status), model, position)

end Model

/-- The abstract database behind a handle that is open or closed. -/
structure Database where
  opened : Bool
  model : Model
  deriving DecidableEq, Repr

/-- The calls that create no reader: they write, close and open. -/
inductive Managed : Act → Prop where
  | append (records : List Record) (scratchSize : Nat) : Managed (.append records scratchSize)
  | checkpoint (scratchSize : Nat) : Managed (.checkpoint scratchSize)
  | expireBefore (cutoff scratchSize : Nat) : Managed (.expireBefore cutoff scratchSize)
  | close : Managed .close
  | openPair (mode : OpenMode) (scratchSize : Nat) : Managed (.openPair mode scratchSize)

namespace Database

def created : Database := ⟨true, .empty⟩

/-- A call on the open handle. -/
def update (database : Database) (change : Except Error Answer × Model) : Except Error Answer × Database :=
  if database.opened then (change.1, { database with model := change.2 }) else (.error (.errno .ebadf), database)

def perform (database : Database) : Act → Except Error Answer × Database
  | .append records scratchSize => database.update (database.model.append records scratchSize)
  | .checkpoint scratchSize => database.update (database.model.checkpoint scratchSize)
  | .expireBefore cutoff scratchSize => database.update (database.model.expireBefore cutoff scratchSize)
  | .close => if database.opened then (.ok .none, { database with opened := false }) else (.error (.errno .ebadf), database)
  | .openPair mode scratchSize =>
      if database.opened then (.error (.errno .einval), database)
      else if scratchSize < batchScratch then (.error .bufferTooSmall, database)
      else if mode = .createNew then (.error .pairMismatch, database)
      else (.ok .none, { database with opened := true })
  | _ => (.ok .none, database)

def calls (database : Database) : List Act → List (Except Error Answer) × Database
  | [] => ([], database)
  | act :: later =>
      ((database.perform act).1 :: ((database.perform act).2.calls later).1, ((database.perform act).2.calls later).2)

end Database

/-- The answers of undisturbed calls, one after the other, and the host they leave. -/
def answers (host : Host) : List Act → List (Except Error Answer) × Host
  | [] => ([], host)
  | act :: later =>
      ((host.call act).1 :: (answers (host.call act).2 later).1, (answers (host.call act).2 later).2)

/-- The abstract database of a content. -/
def modelOf (content : Content) : Model where
  installed := content.segments.map fun segment => segment.numbered.map shown
  pending := content.queued.map shown
  high := content.high
  floor := content.floor

section Reading
variable {content : Content}

/-- All headers carry a span, as the library writes them. -/
def Wide (content : Content) : Prop := ∀ segment ∈ content.segments, segment.wide = true

theorem times_numbered (sequence : Nat) (batches : List Batch) :
    segmentTimes ((number sequence batches).map shown) = timesOf batches := by
  induction batches generalizing sequence with
  | nil => rfl
  | cons batch rest ih =>
      have later := ih (sequence + 1)
      simp only [segmentTimes, number, List.map_cons, List.flatMap_cons, times_cons] at later ⊢
      rw [later]
      rfl

theorem size_numbered (sequence : Nat) (batches : List Batch) :
    batchesSize ((number sequence batches).map shown) = framesSize batches := by
  induction batches generalizing sequence with
  | nil => rfl
  | cons batch rest ih =>
      have later := ih (sequence + 1)
      simp only [batchesSize, number, List.map_cons, List.sum_cons] at later ⊢
      rw [later, frames_size_cons]
      rfl

theorem wal_size : (modelOf content).walSize = content.walEnd := by
  rw [Model.walSize, modelOf, Content.queued, size_numbered, Content.walEnd]

theorem installed_size {segments : List Segment} (wide : ∀ segment ∈ segments, segment.wide = true) :
    Model.installedSize (segments.map fun segment => segment.numbered.map shown) = extent segments := by
  induction segments with
  | nil => rfl
  | cons segment rest ih =>
      have later := ih fun other member => wide other (List.mem_cons_of_mem _ member)
      have header := segment.header_size_wide.mpr (wide segment List.mem_cons_self)
      simp only [Model.installedSize, List.map_cons, List.sum_cons] at later ⊢
      rw [later, extent_cons, Segment.size, header, Segment.numbered, size_numbered]
      rfl

theorem disordered_iff (records : List Record) :
    (modelOf content).Disordered records ↔
      timesFrom (if content.high ≠ 0 then content.floor else 0) records = false := by
  rw [← Bool.not_eq_true, times_from, Model.Disordered, not_and_or, rising_iff]
  refine or_congr_right' fun sorted => ?_
  rw [not_not] at sorted
  simp only [modelOf]
  by_cases some : content.high = 0
  · simp [some]
  · rw [if_pos some]
    cases records with
    | nil => simp
    | cons record rest =>
        have least := (List.pairwise_cons.mp sorted).1
        constructor
        · rintro ⟨_, other, member, below⟩ above
          have head := above record rfl
          rcases List.mem_cons.mp member with same | later
          · rw [same] at below
            omega
          · have order := least _ (List.mem_map_of_mem later)
            simp only at order
            omega
        · intro below
          simp only [List.head?_cons, Option.some.injEq, forall_eq'] at below
          exact ⟨some, record, List.mem_cons_self, by omega⟩

theorem survivors_kept (honest : Honest content) (cutoff : Nat) :
    (modelOf content).survivors cutoff = (content.kept cutoff).map fun segment => segment.numbered.map shown := by
  rw [Model.survivors, modelOf, List.filter_map, Content.kept]
  congr 1
  refine List.filter_congr fun segment member => ?_
  simp only [Function.comp_apply, Segment.numbered, times_numbered]
  rw [Bool.eq_iff_iff, Bool.not_eq_true', Bool.not_eq_true', ← Bool.not_eq_true, ← Bool.not_eq_true,
    expires_iff (honest segment member), List.all_eq_true]
  simp only [decide_eq_true_eq]
  rfl

theorem model_append {batch : Batch} {more : content.high < uint64Max}
    {space : content.walEnd + batch.size ≤ walCapacity} :
    modelOf (content.append batch more space) = { modelOf content with
      pending := (modelOf content).pending ++ [(content.high + 1, batch.records)]
      high := content.high + 1
      floor := finalOf batch.times } := by
  have place : content.installed + 1 + content.pending.length = content.high + 1 := by
    simp only [Content.high]
    omega
  have queued : (content.append batch more space).queued = content.queued ++ [(content.high + 1, batch)] := by
    simp only [Content.queued, Content.append]
    rw [number_append, place]
    rfl
  have high : (content.append batch more space).high = content.high + 1 := by
    simp only [Content.high, Content.append, List.length_append, List.length_singleton]
    omega
  simp only [modelOf, queued, high, Visibility.floor_append, List.map_append, List.map_cons, List.map_nil, shown]
  rfl

theorem model_checkpoint {some : content.pending ≠ []}
    {space : content.dataEnd + (64 + framesSize content.pending) ≤ databaseCapacity} :
    modelOf (content.checkpoint some space) = { modelOf content with
      installed := (modelOf content).installed ++ [(modelOf content).pending], pending := [] } := by
  have high : (content.checkpoint some space).high = content.high := rfl
  have floor : (content.checkpoint some space).floor = content.floor := rfl
  simp only [modelOf, high, floor]
  simp only [Content.checkpoint, List.map_append, List.map_cons, List.map_nil, Content.queued, number]
  rfl

theorem model_expire (honest : Honest content) (cutoff : Nat) :
    modelOf (content.expire cutoff) = { modelOf content with installed := (modelOf content).survivors cutoff } := by
  rw [survivors_kept honest]
  rfl

theorem pending_nil : (modelOf content).pending = [] ↔ content.pending = [] := by
  rw [modelOf, List.map_eq_nil_iff, Content.queued, ← List.length_eq_zero_iff, number_length, List.length_eq_zero_iff]

end Reading

section Answers
variable {v v' : View} {act : Act} {result : Except Error Answer} {host : Host} {identity : Bytes}

/-- What `calls` calls can have made of the counters of a view. -/
structure Within (calls : Nat) (v : View) : Prop where
  wide : Wide v.content
  assigned : v.content.high ≤ calls
  revised : v.m.state.revision ≤ calls * 5

theorem within_answers {calls : Nat} (within : Within calls v) (answers : Answers act v result v') :
    Within (calls + 1) v' := by
  have assigned := within.assigned
  have revised := within.revised
  have same : Within (calls + 1) v := ⟨within.wide, by omega, by omega⟩
  cases answers with
  | append batch scratchSize v accepted none =>
      refine ⟨within.wide, ?_, same.revised⟩
      simp only [Content.high, Content.append, List.length_append, List.length_singleton] at assigned ⊢
      omega
  | checkpoint scratchSize v accepted some space =>
      refine ⟨fun segment member => ?_, same.assigned, ?_⟩
      · rcases List.mem_append.mp member with old | new
        · exact within.wide segment old
        · rw [List.mem_singleton.mp new]
          exact v.content.pending_segment_wide some
      · simp only [nextManifests]
        omega
  | expire cutoff scratchSize revision v accepted some low high =>
      refine ⟨fun segment member => within.wide segment (List.mem_filter.mp member).1, same.assigned, ?_⟩
      simp only [retained]
      omega
  | next capacity scratchSize v sequence batch later large first fits => exact ⟨same.wide, same.assigned, same.revised⟩
  | range range capacity scratchSize v item accepted found fits => exact ⟨same.wide, same.assigned, same.revised⟩
  | seek from_us scratchSize v item large found => exact ⟨same.wide, same.assigned, same.revised⟩
  | seekEnd from_us scratchSize v large none => exact ⟨same.wide, same.assigned, same.revised⟩
  | rewind v => exact ⟨same.wide, same.assigned, same.revised⟩
  | _ => exact same

theorem append_agrees {records : List Record} {scratchSize : Nat} (few : v.content.high < uint64Max)
    (answers : Answers (.append records scratchSize) v result v') :
    (modelOf v.content).append records scratchSize = (result, modelOf v'.content) := by
  have order := @disordered_iff v.content records
  have size : (modelOf v.content).walSize = v.content.walEnd := wal_size
  have fits := v.content.fits
  unfold Model.append
  cases answers with
  | appendRefused records scratchSize v error refused =>
      unfold appendRefusal at refused
      simp only [← order] at refused
      rw [size, encodedSize]
      by_cases count : records.length = 0 ∨ records.length > maxRecords
      · rw [if_pos count] at refused ⊢
        cases refused
        rfl
      rw [if_neg count] at refused ⊢
      by_cases small : scratchSize < batchScratch
      · rw [if_pos small] at refused ⊢
        cases refused
        rfl
      rw [if_neg small] at refused ⊢
      by_cases late : (modelOf v.content).Disordered records
      · rw [if_pos late] at refused ⊢
        cases refused
        rfl
      rw [if_neg late] at refused ⊢
      by_cases full : 64 + records.length * 20 > walCapacity - v.content.walEnd
      · rw [if_pos full] at refused
        rw [if_pos (by simp only [Content.walEnd] at full ⊢; omega)]
        cases refused
        rfl
      · rw [if_neg full, if_neg (by omega)] at refused
        cases refused
  | append batch scratchSize v accepted none =>
      have counted := List.length_pos_iff.mpr batch.occupied
      have limit := batch.few
      obtain ⟨large, times⟩ := append_passes none
      have sorted : ¬ (modelOf v.content).Disordered batch.records := by
        rw [order, times]
        exact Bool.true_eq_false.mp
      have space := accepted.space
      have last : ((batch.records.map (·.timestamp.toNat)).getLast?).getD (modelOf v.content).floor =
          finalOf batch.times := by
        rw [finalOf, Batch.times, List.getLast?_eq_some_getLast (by simpa using batch.occupied)]
        rfl
      simp only [Batch.size] at space
      rw [if_neg (by omega), if_neg (by omega), if_neg sorted, if_neg (by rw [size, encodedSize]; omega), model_append, last]
      rfl

theorem checkpoint_agrees {scratchSize : Nat} (wide : Wide v.content) (few : v.m.state.revision < uint64Max)
    (answers : Answers (.checkpoint scratchSize) v result v') :
    (modelOf v.content).checkpoint scratchSize = (result, modelOf v'.content) := by
  have nil := @pending_nil v.content
  have size : Model.installedSize ((modelOf v.content).installed ++ [(modelOf v.content).pending]) =
      extent v.content.segments + (64 + framesSize v.content.pending) := by
    have installed : Model.installedSize (modelOf v.content).installed = extent v.content.segments := installed_size wide
    simp only [Model.installedSize] at installed ⊢
    rw [List.map_append, List.sum_append, installed]
    simp only [modelOf, Content.queued, List.map_cons, List.map_nil, List.sum_cons, List.sum_nil, size_numbered,
      Nat.add_zero]
  have room := v.content.room
  unfold Model.checkpoint
  rw [size]
  cases answers with
  | checkpointRefused scratchSize v error refused =>
      unfold checkpointRefusal at refused
      by_cases small : scratchSize < batchScratch
      · rw [if_pos small] at refused ⊢
        cases refused
        rfl
      rw [if_neg small] at refused ⊢
      by_cases empty : v.content.pending = []
      · rw [if_pos empty] at refused
        cases refused
      rw [if_neg empty, if_neg (by omega)] at refused
      rw [if_neg (by rwa [nil])]
      by_cases full : framesSize v.content.pending + 64 > databaseCapacity - v.content.dataEnd
      · rw [if_pos full] at refused
        rw [if_pos (by simp only [Content.dataEnd] at full; omega)]
        cases refused
        rfl
      · rw [if_neg full] at refused
        cases refused
  | checkpointNothing scratchSize v accepted empty =>
      have large := checkpoint_large accepted
      rw [if_neg (by omega), if_pos (nil.mpr empty)]
  | checkpoint scratchSize v accepted some space =>
      have large := checkpoint_large accepted
      have fits : ¬ databaseCapacity < 160 + (extent v.content.segments + (64 + framesSize v.content.pending)) := by
        simp only [Content.dataEnd] at space
        omega
      rw [if_neg (by omega), if_neg (by rwa [nil]), if_neg fits, model_checkpoint]

theorem expire_agrees {cutoff scratchSize : Nat} (wide : Wide v.content) (honest : Honest v.content)
    (few : v.m.state.revision ≤ uint64Max - 5) (answers : Answers (.expireBefore cutoff scratchSize) v result v') :
    (modelOf v.content).expireBefore cutoff scratchSize = (result, modelOf v'.content) := by
  have survivors := survivors_kept honest cutoff
  have count : ((modelOf v.content).survivors cutoff).length = (v.content.kept cutoff).length := by
    rw [survivors, List.length_map]
  have count' : (modelOf v.content).installed.length = v.content.segments.length := by rw [modelOf, List.length_map]
  have size : Model.installedSize (modelOf v.content).installed = extent v.content.segments := installed_size wide
  have size' : Model.installedSize ((modelOf v.content).survivors cutoff) = extent (v.content.kept cutoff) := by
    rw [survivors]
    exact installed_size fun segment member => wide segment (List.mem_filter.mp member).1
  have room := v.content.room
  unfold Model.expireBefore
  rw [count, count', size, size']
  cases answers with
  | expireRefused cutoff scratchSize v error refused =>
      unfold expireRefusal at refused
      by_cases small : scratchSize < batchScratch
      · rw [if_pos small] at refused ⊢
        cases refused
        rfl
      rw [if_neg small] at refused ⊢
      by_cases all : (v.content.kept cutoff).length = v.content.segments.length
      · rw [if_pos all] at refused
        cases refused
      rw [if_neg all] at refused ⊢
      by_cases full : extent (v.content.kept cutoff) > databaseCapacity - v.content.dataEnd
      · rw [if_pos full] at refused
        rw [if_pos (by simp only [Content.dataEnd] at full; omega)]
        cases refused
        rfl
      · rw [if_neg full, if_neg (by omega)] at refused
        cases refused
  | expireNothing cutoff scratchSize v accepted all =>
      have large := expire_large accepted
      rw [if_neg (by omega), if_pos all]
  | expire cutoff scratchSize revision v accepted some low high =>
      have large := expire_large accepted
      have fits := (expire_bounds accepted some).1
      simp only [Content.dataEnd] at fits
      rw [if_neg (by omega), if_neg some, if_neg (by omega), model_expire honest]

end Answers

section Simulation
variable {host : Host} {identity : Bytes} {v : View} {database : Database} {calls : Nat}

/-- The files, and the handle while it is open, hold the abstract database. -/
inductive Refines (calls : Nat) (host : Host) (database : Database) : Prop where
  | opened (identity : Bytes) (v : View) (holding : Holding host identity v) (within : Within calls v)
      (same : database = ⟨true, modelOf v.content⟩) : Refines calls host database
  | closed (identity : Bytes) (v : View) (handle : Batches) (holding : Holding ⟨host.store, handle⟩ identity v)
      (within : Within calls v) (fresh : host.db = batchesInit) (same : database = ⟨false, modelOf v.content⟩) :
      Refines calls host database

theorem holding_close (holding : Holding host identity v) :
    host.call .close = (.ok .none, ⟨host.store, batchesInit⟩) := by
  have tracks := holding.live.settled.tracks
  have open_ : ¬ (host.db.database = false ∧ host.db.wal = false) := by simp [tracks.wal]
  rw [Host.call, Act.perform, batchesClose, if_neg open_]
  simp only [tracks.wal, tracks.database]
  rfl

/-- The handle after an open is that of the content, and its revision is near the one before. -/
theorem holding_open (holding : Holding host identity v) {mode : OpenMode} {scratchSize : Nat}
    (large : batchScratch ≤ scratchSize) (old : mode ≠ .createNew) :
    ∃ m, (Host.call ⟨host.store, batchesInit⟩ (.openPair mode scratchSize)).1 = .ok .none ∧
      Holding (Host.call ⟨host.store, batchesInit⟩ (.openPair mode scratchSize)).2 identity ⟨v.content, m, 1⟩ ∧
      m.state.revision ≤ v.m.state.revision + 2 := by
  have settled := holding.live.settled
  have safe : Safe (fun _ _ => True) host.store := safe_synced settled.synced trivial
  have shut : batchesInit.database = false ∧ batchesInit.wal = false := ⟨rfl, rfl⟩
  obtain ⟨handle, after, m, triple, live, _, near⟩ := open_recovers safe settled.wide holding.live.recovers
    (fun _ _ _ _ => trivial) shut large old
  have ran : Host.call ⟨host.store, batchesInit⟩ (.openPair mode scratchSize) = (.ok .none, ⟨after, handle⟩) := by
    rw [Host.call]
    have inner : Prog.run device (Act.perform batchesInit (.openPair mode scratchSize)) host.store =
        ((.ok .none, handle), after) := run_answering triple.run_eq
    rw [inner]
  rw [ran]
  exact ⟨m, rfl, ⟨live, holding.honest⟩, near _ settled.chosen⟩

theorem within_more (within : Within calls v) : Within (calls + 1) v :=
  ⟨within.wide, by have := within.assigned; omega, by have := within.revised; omega⟩

-- An open handle: one case for each managed call.
theorem opened_simulates {act : Act} (holding : Holding host identity v) (within : Within calls v)
    (few : calls < 2 ^ 60) (managed : Managed act) :
    (host.call act).1 = (Database.perform ⟨true, modelOf v.content⟩ act).1 ∧
      Refines (calls + 1) (host.call act).2 (Database.perform ⟨true, modelOf v.content⟩ act).2 := by
  have assigned := within.assigned
  have revised := within.revised
  have small : v.content.high < uint64Max := by simp only [uint64Max]; omega
  have room : v.m.state.revision ≤ uint64Max - 5 := by simp only [uint64Max]; omega
  have stepped : ∀ {change : Except Error Answer × Model}, act ≠ .close →
      (∀ v', Answers act v (host.call act).1 v' → change = ((host.call act).1, modelOf v'.content)) →
      (host.call act).1 = change.1 ∧ Refines (calls + 1) (host.call act).2 ⟨true, change.2⟩ := by
    intro change other agrees
    obtain ⟨v', answers, held⟩ := holding_call holding other
    have agree := agrees v' answers
    rw [agree]
    exact ⟨rfl, .opened identity v' held (within_answers within answers) rfl⟩
  cases managed with
  | append records scratchSize => exact stepped (by simp) fun v' answers => append_agrees small answers
  | checkpoint scratchSize =>
      exact stepped (by simp) fun v' answers => checkpoint_agrees within.wide (by omega) answers
  | expireBefore cutoff scratchSize =>
      exact stepped (by simp) fun v' answers => expire_agrees within.wide holding.honest room answers
  | close =>
      rw [holding_close holding]
      exact ⟨rfl, .closed identity v host.db holding (within_more within) rfl rfl⟩
  | openPair mode scratchSize =>
      have busy := @stepped (.error (.errno .einval), modelOf v.content) (by simp) fun v' answers => by
        generalize (host.call (.openPair mode scratchSize)).1 = result at answers ⊢
        cases answers
        rfl
      exact busy

-- A closed handle: only open has an effect.
theorem closed_simulates {act : Act} {handle : Batches} (holding : Holding ⟨host.store, handle⟩ identity v)
    (within : Within calls v) (fresh : host.db = batchesInit) (managed : Managed act) :
    (host.call act).1 = (Database.perform ⟨false, modelOf v.content⟩ act).1 ∧
      Refines (calls + 1) (host.call act).2 (Database.perform ⟨false, modelOf v.content⟩ act).2 := by
  obtain ⟨store, db⟩ := host
  simp only at fresh holding
  subst fresh
  have stays : ∀ {error : Error}, (Host.call ⟨store, batchesInit⟩ act) = (.error error, ⟨store, batchesInit⟩) →
      Database.perform ⟨false, modelOf v.content⟩ act = (.error error, ⟨false, modelOf v.content⟩) →
      (Host.call ⟨store, batchesInit⟩ act).1 = (Database.perform ⟨false, modelOf v.content⟩ act).1 ∧
        Refines (calls + 1) (Host.call ⟨store, batchesInit⟩ act).2 (Database.perform ⟨false, modelOf v.content⟩ act).2 := by
    intro error call model
    rw [call, model]
    exact ⟨rfl, .closed identity v handle holding (within_more within) rfl rfl⟩
  cases managed with
  | append records scratchSize => exact stays rfl rfl
  | checkpoint scratchSize => exact stays rfl rfl
  | expireBefore cutoff scratchSize => exact stays rfl rfl
  | close => exact stays rfl rfl
  | openPair mode scratchSize =>
      have safe : Safe (fun _ _ => True) store := safe_synced holding.live.settled.synced trivial
      by_cases small : scratchSize < batchScratch
      · refine @stays .bufferTooSmall ?_ ?_
        · rw [Host.call, Act.perform, open_small ⟨rfl, rfl⟩ small]
          rfl
        · simp only [Database.perform, if_pos small]
          rfl
      by_cases new : mode = .createNew
      · subst new
        refine @stays .pairMismatch ?_ ?_
        · have inner : Prog.run device (Act.perform batchesInit (.openPair .createNew scratchSize)) store =
              ((.error .pairMismatch, batchesInit), store) :=
            run_answering (open_created safe ⟨rfl, rfl⟩ (Nat.not_lt.mp small)).run_eq
          rw [Host.call, inner]
        · simp only [Database.perform, if_neg small]
          rfl
      obtain ⟨m, answer, held, near⟩ := holding_open holding (Nat.not_lt.mp small) new
      have model : Database.perform ⟨false, modelOf v.content⟩ (.openPair mode scratchSize) =
          (.ok .none, ⟨true, modelOf v.content⟩) := by
        simp only [Database.perform, if_neg small, if_neg new]
        rfl
      have later := within_more within
      have revised := within.revised
      rw [model, answer]
      exact ⟨rfl, .opened identity ⟨v.content, m, 1⟩ held ⟨later.wide, later.assigned, by simp only; omega⟩ rfl⟩

theorem refines_call {act : Act} (refines : Refines calls host database) (few : calls < 2 ^ 60) (managed : Managed act) :
    (host.call act).1 = (database.perform act).1 ∧ Refines (calls + 1) (host.call act).2 (database.perform act).2 := by
  cases refines with
  | opened identity v holding within same =>
      rw [same]
      exact opened_simulates holding within few managed
  | closed identity v handle holding within fresh same =>
      rw [same]
      exact closed_simulates holding within fresh managed

theorem refines_calls {acts : List Act} (refines : Refines calls host database) (few : calls + acts.length ≤ 2 ^ 60)
    (managed : ∀ act ∈ acts, Managed act) :
    (answers host acts).1 = (database.calls acts).1 ∧
      Refines (calls + acts.length) (answers host acts).2 (database.calls acts).2 := by
  induction acts generalizing calls host database with
  | nil => exact ⟨rfl, refines⟩
  | cons act later ih =>
      rw [List.length_cons] at few ⊢
      obtain ⟨answer, next⟩ := refines_call refines (by omega) (managed act List.mem_cons_self)
      obtain ⟨rest, last⟩ := ih next (by omega) fun act member => managed act (List.mem_cons_of_mem _ member)
      rw [answers, Database.calls, answer, rest]
      refine ⟨rfl, ?_⟩
      have shift : calls + (later.length + 1) = calls + 1 + later.length := by omega
      rw [shift]
      exact last

theorem listed_model (content : Content) :
    (modelOf content).installed.flatten ++ (modelOf content).pending = listed content := by
  rw [listed, Content.exposed, List.map_append, List.map_flatMap, modelOf, List.flatMap_def]

end Simulation

/-- The two files and the handle refine the abstract database: every call answers as it
does, and in between the reader returns exactly its batches. -/
theorem storage_refines {host : Host} {acts : List Act} (created : Created host) (managed : ∀ act ∈ acts, Managed act)
    (few : acts.length < 2 ^ 60) :
    (answers host acts).1 = (Database.created.calls acts).1 ∧
      Refines acts.length (answers host acts).2 (Database.created.calls acts).2 ∧
      ((Database.created.calls acts).2.opened = true → Exposes (answers host acts).2
        ((Database.created.calls acts).2.model.installed.flatten ++ (Database.created.calls acts).2.model.pending)) := by
  obtain ⟨identity, live⟩ := created_live created
  have start : Refines 0 host Database.created :=
    .opened identity ⟨.empty, createdManifests, 1⟩ ⟨live, honest_empty⟩
      ⟨fun segment member => absurd member (List.not_mem_nil), Nat.le_refl _, Nat.le_refl _⟩ rfl
  obtain ⟨same, refines⟩ := refines_calls start (by omega) managed
  rw [Nat.zero_add] at refines
  refine ⟨same, refines, fun opened => ?_⟩
  cases refines with
  | opened identity v holding within shape =>
      rw [shape, listed_model]
      exact holding_exposes holding
  | closed identity v handle holding within fresh shape =>
      rw [shape] at opened
      cases opened

/-- One batch is appended, installed, closed away and found again. -/
theorem storage_refines_fresh :
    (answers fresh [.append [⟨1, 5, 7⟩] batchScratch, .checkpoint batchScratch, .close,
        .openPair .openExisting batchScratch]).1 = [.ok (.sequence 1), .ok .none, .ok .none, .ok .none] ∧
      Exposes (answers fresh [.append [⟨1, 5, 7⟩] batchScratch, .checkpoint batchScratch, .close,
        .openPair .openExisting batchScratch]).2 [(1, [⟨1, 5, 7⟩])] := by
  obtain ⟨same, _, exposes⟩ := @storage_refines fresh [.append [⟨1, 5, 7⟩] batchScratch, .checkpoint batchScratch,
    .close, .openPair .openExisting batchScratch] fresh_created
    (by
      intro act member
      simp only [List.mem_cons, List.not_mem_nil, or_false] at member
      rcases member with rfl | rfl | rfl | rfl <;> constructor)
    (by decide)
  exact ⟨same, exposes rfl⟩

end Timelite.Abstract
