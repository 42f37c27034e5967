import Timelite.Touring

/-!
Rewind and next on a handle that open has returned. Whatever the bodies hold, the
batches that next returns are those of the tour.
-/
namespace Timelite.Enumerating
open ByteFile Program Durable Codec CodecLaws Backend BackendLaws Layout FrameLaws HeaderWalk Images Databases Decoding
  Grammar Reader Retention BatchApi System Undisturbed Opaque Refusing Walking Establishing Lifting Touring

section Cursors
variable {store : Store} {db : Batches} {installed floor : Nat} {all : List (Nat × SegmentInfo)} {met : List Met}
  {reached : Bool}

def placeEnd (place : Nat × SegmentInfo) : Nat := place.1 + place.2.headerSize + place.2.body

/-- The batches of the WAL that the cursor comes to. -/
def pendingOf (db : Batches) (batches : List Batch) : List Met := meet none batches.length (next64 db.installed)

/-- What lies before a cursor: the rest of a body, the segments behind it, and the WAL. -/
inductive Before (store : Store) (all : List (Nat × SegmentInfo)) (db : Batches) : List Met → Bool → Prop where
  | body (fuel floor installed : Nat) (place : Nat × SegmentInfo) (rest : List (Nat × SegmentInfo)) (batches : List Batch)
      (outside : db.inWal = false) (inside : db.cursor ≤ db.segmentEnd) (enough : db.segmentEnd - db.cursor ≤ fuel)
      (here : db.cursor < db.segmentEnd → place ∈ all ∧ placeEnd place = db.segmentEnd)
      (laid : Laid (store.content .database) db.dataEnd installed db.retention db.segmentEnd floor rest)
      (part : ∀ other ∈ rest, other ∈ all) (held : Holds (store.content .wal) 32 (frames (db.installed + 1) batches))
      (whole : db.walEnd = 32 + framesSize batches) :
      Before store all db
        (meet (some place) (frameRun (store.content .database) db.segmentEnd fuel db.cursor db.readSequence).1.length
            db.readSequence ++
          match (frameRun (store.content .database) db.segmentEnd fuel db.cursor db.readSequence).2 with
          | none => []
          | some next => (tour (store.content .database) db.retention (pendingOf db batches) rest next).1)
        (match (frameRun (store.content .database) db.segmentEnd fuel db.cursor db.readSequence).2 with
          | none => false
          | some next => (tour (store.content .database) db.retention (pendingOf db batches) rest next).2)
  | wal (batches : List Batch) (inside : db.inWal = true) (small : db.readSequence < 18446744073709551616)
      (held : Holds (store.content .wal) db.cursor (frames db.readSequence batches))
      (whole : db.walEnd = db.cursor + framesSize batches) :
      Before store all db (meet none batches.length db.readSequence) true

/-- Where the cursor is after a batch. -/
def Tells (db : Batches) (item : Met) : Prop :=
  match item.2 with
  | none => db.inWal = true
  | some place => db.inWal = false ∧ db.segmentEnd = placeEnd place

/-- What the cursor reads next. -/
def Yields (store : Store) (all : List (Nat × SegmentInfo)) (db : Batches) (read : Io Delivery) (met : List Met)
    (reached : Bool) : Prop :=
  match met with
  | [] => (on read store).1 = .error (if reached then .endOfData else .invalidDatabase)
  | item :: rest => ∃ delivery, (on read store).1 = .ok delivery ∧ delivery.sequence = item.1 ∧
      Tells (copyCursor db delivery.db) item ∧ Before store all (copyCursor db delivery.db) rest reached

theorem yields_wal {batches : List Batch} {cursor expected : Nat} (small : expected < 18446744073709551616)
    (held : Holds (store.content .wal) cursor (frames expected batches)) (whole : db.walEnd = cursor + framesSize batches) :
    Yields store all db (readWalCursor db cursor expected) (meet none batches.length expected) true := by
  cases batches with
  | nil =>
      rw [frames_size_nil, Nat.add_zero] at whole
      change (on (readWalCursor db cursor expected) store).1 = .error .endOfData
      rw [readWalCursor, if_pos whole.symm]
      rfl
  | cons batch rest =>
      rw [frames_cons, holds_append, frame_length] at held
      rw [frames_size_cons] at whole
      have least := batch.size_ge
      have read := @read_frame .wal store cursor db.walEnd expected batch held.1 (by omega) small
      rw [List.length_cons, meet]
      refine ⟨delivered db (frameOf expected batch) expected cursor db.segmentEnd true, ?_, rfl, rfl, ?_⟩
      · rw [readWalCursor, if_neg (by omega), on_bind_ok read]
        rfl
      · refine .wal rest rfl (next64_lt _) ?_ ?_
        · change Holds _ (cursor + (frameOf expected batch).bytes.length) (frames (next64 expected) rest)
          rw [frame_of_length, @frames_congr (next64 expected) (expected + 1) (by simp only [next64]; omega)]
          exact held.2
        · change db.walEnd = cursor + (frameOf expected batch).bytes.length + framesSize rest
          rw [frame_of_length]
          omega

theorem yields_body {cursor limit expected fuel : Nat} {place : Nat × SegmentInfo} {rest : List (Nat × SegmentInfo)}
    {batches : List Batch} (more : cursor < limit) (enough : limit - cursor ≤ fuel) (here : place ∈ all)
    (ends : placeEnd place = limit)
    (laid : Laid (store.content .database) db.dataEnd installed db.retention limit floor rest)
    (part : ∀ other ∈ rest, other ∈ all) (held : Holds (store.content .wal) 32 (frames (db.installed + 1) batches))
    (whole : db.walEnd = 32 + framesSize batches) :
    Yields store all db (readInstalledCursor db cursor limit expected)
      (meet (some place) (frameRun (store.content .database) limit fuel cursor expected).1.length expected ++
        match (frameRun (store.content .database) limit fuel cursor expected).2 with
        | none => []
        | some next => (tour (store.content .database) db.retention (pendingOf db batches) rest next).1)
      (match (frameRun (store.content .database) limit fuel cursor expected).2 with
        | none => false
        | some next => (tour (store.content .database) db.retention (pendingOf db batches) rest next).2) := by
  have read := @read_frame_in (store.content .database) cursor limit expected store (agree_refl _ _ _)
  obtain ⟨fuel, rfl⟩ : ∃ k, fuel = k + 1 := ⟨fuel - 1, by omega⟩
  cases found : frameIn (store.content .database) cursor limit expected with
  | error error =>
      rw [frame_run_error more found]
      rw [found] at read
      change (on (readInstalledCursor db cursor limit expected) store).1 = .error .invalidDatabase
      have failed : on (complete (readFrame .database cursor limit expected)) store = (.error .invalidDatabase, store) := by
        rw [complete, on_examine, read]
        rcases Grammar.read_frame_error found with rfl | ⟨rfl, _⟩ <;> rfl
      rw [readInstalledCursor, on_bind_error failed]
  | ok frame =>
      obtain ⟨_, large, fits⟩ := frame_in found
      rw [found] at read
      rw [frame_run_ok more found, List.length_cons, meet, List.cons_append]
      refine ⟨delivered db frame expected cursor limit false, ?_, rfl, ⟨rfl, ends.symm⟩, ?_⟩
      · rw [readInstalledCursor, on_bind_ok (on_complete_ok read)]
        rfl
      · exact @Before.body store all (copyCursor db (delivered db frame expected cursor limit false).db) fuel floor installed
          place rest batches rfl fits (show limit - (cursor + frame.bytes.length) ≤ fuel by omega)
          (fun _ => ⟨here, ends⟩) laid part held whole

theorem yields_same {read read' : Io Delivery} (same : on read store = on read' store)
    (yields : Yields store all db read met reached) : Yields store all db read' met reached := by
  cases met with
  | nil => exact (congrArg Prod.fst same).symm.trans yields
  | cons item rest =>
      obtain ⟨delivery, ran, facts⟩ := yields
      exact ⟨delivery, (congrArg Prod.fst same).symm.trans ran, facts⟩

/-- One step of the cursor. -/
theorem before_yields (before : Before store all db met reached) : Yields store all db (readCursor db) met reached := by
  cases before with
  | wal batches inside small held whole =>
      rw [readCursor, if_pos inside]
      exact yields_wal small held whole
  | body fuel floor installed place rest batches outside inside enough here laid part held whole =>
      rw [readCursor, if_neg (by simp [outside])]
      have low : db.segmentEnd ≤ db.dataEnd := by
        cases rest with
        | nil => exact Nat.le_of_eq laid.1
        | cons other rest => exact Nat.le_trans (by omega) (header_in laid.2.1).fits
      by_cases more : db.cursor < db.segmentEnd
      · rw [if_neg (by omega), if_neg (by omega)]
        exact yields_body more enough (here more).1 (here more).2 laid part held whole
      · have same : db.cursor = db.segmentEnd := by omega
        rw [frame_run_end more]
        simp only [List.length_nil, meet, List.nil_append]
        cases rest with
        | nil =>
            rw [if_pos (same.trans laid.1)]
            refine yields_wal (next64_lt _) ?_ whole
            rw [@frames_congr (next64 db.installed) (db.installed + 1) (by simp only [next64]; omega)]
            exact held
        | cons other rest =>
            obtain ⟨position, found, _, _, later⟩ := laid
            have header := header_in found
            have least := header.least
            have fits := header.fits
            have read := @read_header (store.content .database) db.segmentEnd db.dataEnd store (agree_refl _ _ _)
            rw [found, ← same] at read
            rw [if_neg (by omega), if_pos same]
            by_cases follows : other.2.first = db.readSequence ∨ (db.retention = true ∧ db.readSequence ≤ other.2.first)
            · have yields := @yields_body store db installed other.2.last all (db.cursor + other.2.headerSize)
                (db.cursor + other.2.headerSize + other.2.body) other.2.first other.2.body other rest batches (by omega)
                (by omega) (part _ List.mem_cons_self) (by rw [placeEnd, position, same]) (same ▸ later)
                (fun item member => part item (List.mem_cons_of_mem _ member)) held whole
              have run : bodyRun (store.content .database) other.1 other.2 =
                  frameRun (store.content .database) (db.cursor + other.2.headerSize + other.2.body) other.2.body
                    (db.cursor + other.2.headerSize) other.2.first := by
                rw [bodyRun, position, same]
              rw [tour, if_pos follows, run]
              refine @yields_same store db all _ _ (readInstalledCursor db (db.cursor + other.2.headerSize)
                (db.cursor + other.2.headerSize + other.2.body) other.2.first) _ ?_ ?_
              · rw [on_bind_ok read, on_require_bind, if_pos follows]
              · revert yields
                cases (frameRun (store.content .database) (db.cursor + other.2.headerSize + other.2.body) other.2.body
                    (db.cursor + other.2.headerSize) other.2.first).2 with
                | none =>
                    intro yields
                    rw [List.append_nil] at yields
                    exact yields
                | some next => exact id
            · rw [tour, if_neg follows]
              change (on _ store).1 = .error .invalidDatabase
              rw [on_bind_ok read, on_require_bind, if_neg follows]

end Cursors

section Draining
variable {host after : Host} {all : List (Nat × SegmentInfo)} {met : List Met} {reached : Bool}
  {capacity scratchSize : Nat} {error : Error}

/-- Calls of next until the first that returns an error, with what each of them returned and left. -/
inductive Drains : Host → List (Nat × Host) → Error → Prop where
  | stop {host after : Host} {capacity scratchSize : Nat} {error : Error}
      (refused : host.call (.next capacity scratchSize) = (.error error, after)) : Drains host [] error
  | more {host after : Host} {capacity scratchSize sequence : Nat} {records : List Record} {items : List (Nat × Host)}
      {error : Error} (answered : host.call (.next capacity scratchSize) = (.ok (.batch sequence records), after))
      (rest : Drains after items error) : Drains host ((sequence, after) :: items) error

def Ready (host : Host) : Prop := host.db.wal = true ∧ host.db.failed = false

theorem call_of_run {act : Act} {result : Except Error Answer} {db : Batches} {store : Store}
    (ran : Prog.run device (act.perform host.db) host.store = ((result, db), store)) : host.call act = (result, ⟨store, db⟩) := by
  rw [Host.call, ran]

theorem ready_arguments (ready : Ready host) : readArguments host.db scratchSize =
    if scratchSize < batchScratch then .error .bufferTooSmall else .ok () := by
  rw [readArguments, batchReady, ready.1, ready.2]
  rfl

theorem next_small (ready : Ready host) (small : scratchSize < batchScratch) :
    host.call (.next capacity scratchSize) = (.error .bufferTooSmall, host) := by
  have run : Prog.run device (batchesNext host.db capacity scratchSize) host.store =
      ((.error .bufferTooSmall, host.db), host.store) := by
    unfold batchesNext
    rw [ready_arguments ready, if_pos small]
    rfl
  exact call_of_run (Refinement.run_answering run)

theorem next_error (ready : Ready host) (large : batchScratch ≤ scratchSize)
    (read : (on (readCursor host.db) host.store).1 = .error error) :
    host.call (.next capacity scratchSize) = (.error error, host) := by
  have shape := (Cursor.reads_readCursor host.db).on_eq host.store
  rw [read] at shape
  have run : Prog.run device (batchesNext host.db capacity scratchSize) host.store = ((.error error, host.db), host.store) := by
    unfold batchesNext
    rw [ready_arguments ready, if_neg (Nat.not_lt.mpr large)]
    exact Calls.run_attempt_error shape
  exact call_of_run (Refinement.run_answering run)

theorem next_ok {delivery : Delivery} (ready : Ready host) (large : batchScratch ≤ scratchSize)
    (read : (on (readCursor host.db) host.store).1 = .ok delivery) :
    host.call (.next capacity scratchSize) =
      if capacity < delivery.frame.records then (.error .bufferTooSmall, host)
      else (.ok (.batch delivery.sequence (frameRecords delivery.frame)), ⟨host.store, copyCursor host.db delivery.db⟩) := by
  have shape := (Cursor.reads_readCursor host.db).on_eq host.store
  rw [read] at shape
  by_cases few : capacity < delivery.frame.records
  · have run : Prog.run device (batchesNext host.db capacity scratchSize) host.store =
        ((.error .bufferTooSmall, host.db), host.store) := by
      unfold batchesNext
      rw [ready_arguments ready, if_neg (Nat.not_lt.mpr large)]
      refine (Calls.run_attempt_ok shape).trans ?_
      simp only [few, if_true]
      rfl
    rw [if_pos few]
    exact call_of_run (Refinement.run_answering run)
  · have run : Prog.run device (batchesNext host.db capacity scratchSize) host.store =
        ((.ok (delivery.sequence, frameRecords delivery.frame), copyCursor host.db delivery.db), host.store) := by
      unfold batchesNext
      rw [ready_arguments ready, if_neg (Nat.not_lt.mpr large)]
      refine (Calls.run_attempt_ok shape).trans ?_
      simp only [few, if_false]
      rfl
    rw [if_neg few]
    exact call_of_run (Refinement.run_answering run)

/-- A batch that next returns is the one at the cursor. -/
theorem next_more {sequence : Nat} {records : List Record} (ready : Ready host)
    (answered : host.call (.next capacity scratchSize) = (.ok (.batch sequence records), after)) :
    ∃ delivery, (on (readCursor host.db) host.store).1 = .ok delivery ∧ delivery.sequence = sequence ∧
      after = ⟨host.store, copyCursor host.db delivery.db⟩ := by
  by_cases small : scratchSize < batchScratch
  · rw [next_small ready small] at answered
    cases answered
  have large := Nat.le_of_not_lt small
  cases read : (on (readCursor host.db) host.store).1 with
  | error error =>
      rw [next_error ready large read] at answered
      cases answered
  | ok delivery =>
      rw [next_ok ready large read] at answered
      split at answered
      · cases answered
      · cases answered
        exact ⟨delivery, rfl, rfl, rfl⟩

theorem next_end (ready : Ready host) (refused : host.call (.next capacity scratchSize) = (.error .endOfData, after)) :
    (on (readCursor host.db) host.store).1 = .error .endOfData := by
  by_cases small : scratchSize < batchScratch
  · rw [next_small ready small] at refused
    cases refused
  have large := Nat.le_of_not_lt small
  cases read : (on (readCursor host.db) host.store).1 with
  | error error =>
      rw [next_error ready large read] at refused
      cases refused
      rfl
  | ok delivery =>
      rw [next_ok ready large read] at refused
      split at refused <;> cases refused

/-- What next returned is what the tour meets. -/
def Matches (item : Nat × Host) (met : Met) : Prop := item.1 = met.1 ∧ Tells item.2.db met

/-- The batches that a reader gets are the first ones of the tour, all of them when it comes to the end. -/
theorem drains_before {items : List (Nat × Host)} (ready : Ready host) (drains : Drains host items error)
    (before : Before host.store all host.db met reached) :
    ∃ taken later, met = taken ++ later ∧ List.Forall₂ Matches items taken ∧
      (error = .endOfData → later = [] ∧ reached = true) := by
  induction drains generalizing met with
  | stop refused =>
      refine ⟨[], met, rfl, .nil, ?_⟩
      rintro rfl
      have ended := next_end ready refused
      have yields := before_yields before
      cases met with
      | nil =>
          have read : _ = Except.error (if reached then Error.endOfData else Error.invalidDatabase) := yields
          rw [ended] at read
          cases reached with
          | true => exact ⟨rfl, rfl⟩
          | false => cases read
      | cons item rest =>
          obtain ⟨delivery, read, _⟩ := yields
          rw [ended] at read
          cases read
  | more answered rest ih =>
      obtain ⟨delivery, read, sequence, rfl⟩ := next_more ready answered
      have yields := before_yields before
      cases met with
      | nil =>
          have failed : _ = Except.error (if reached then Error.endOfData else Error.invalidDatabase) := yields
          rw [read] at failed
          cases failed
      | cons item met =>
          obtain ⟨delivery', read', same, tells, before'⟩ := yields
          rw [read] at read'
          cases read'
          obtain ⟨taken, later, rfl, each, ends⟩ := @ih met ready before'
          exact ⟨item :: taken, later, rfl, .cons ⟨sequence.symm.trans same, tells⟩ each, ends⟩

/-- Every reader can get the whole tour. -/
theorem drains_all (ready : Ready host) (before : Before host.store all host.db met reached) :
    ∃ items error, Drains host items error ∧ List.Forall₂ Matches items met ∧ (reached = true → error = .endOfData) := by
  induction met generalizing host with
  | nil =>
      have read : _ = Except.error (if reached then Error.endOfData else Error.invalidDatabase) := before_yields before
      exact ⟨[], _, .stop (@next_error host 0 batchScratch _ ready (Nat.le_refl _) read), .nil, fun ends => by rw [ends]; rfl⟩
  | cons item met ih =>
      obtain ⟨delivery, read, same, tells, before'⟩ := before_yields before
      obtain ⟨items, error, drains, each, ends⟩ := @ih ⟨host.store, copyCursor host.db delivery.db⟩ ready before'
      have call := @next_ok host delivery.frame.records batchScratch delivery ready (Nat.le_refl _) read
      rw [if_neg (Nat.lt_irrefl _)] at call
      exact ⟨_, error, .more call drains, .cons ⟨same, tells⟩ each, ends⟩

end Draining

section Promises
variable {opened : Host} {installed offset floor limit : Nat} {d : Bytes} {enabled : Bool}

-- A segment is known by where it ends.
theorem laid_ends {places : List (Nat × SegmentInfo)} (laid : Laid d limit installed enabled offset floor places) :
    places.Pairwise (fun left right => placeEnd left < placeEnd right) ∧ ∀ place ∈ places, offset < placeEnd place := by
  induction places generalizing offset floor with
  | nil => exact ⟨.nil, fun _ member => absurd member List.not_mem_nil⟩
  | cons place rest ih =>
      obtain ⟨position, found, _, _, later⟩ := laid
      have size := (header_in found).size
      obtain ⟨pairs, behind⟩ := ih later
      rw [List.pairwise_cons]
      refine ⟨⟨fun other member => ?_, pairs⟩, fun other member => ?_⟩
      · have step := behind other member
        rw [placeEnd, position]
        exact step
      · rcases List.mem_cons.mp member with rfl | inside
        · rw [placeEnd, position]
          omega
        · have step := behind other inside
          omega

theorem laid_unique {places : List (Nat × SegmentInfo)} (laid : Laid d limit installed enabled offset floor places)
    {left right : Nat × SegmentInfo} (first : left ∈ places) (second : right ∈ places)
    (same : placeEnd left = placeEnd right) : left = right := by
  have ascending := (laid_ends laid).1
  have apart : places.Pairwise fun a b => placeEnd a = placeEnd b → a = b :=
    ascending.imp fun less equal => absurd equal (Nat.ne_of_lt less)
  have apart' : places.Pairwise (flip fun a b => placeEnd a = placeEnd b → a = b) :=
    ascending.imp fun less equal => absurd equal.symm (Nat.ne_of_lt less)
  exact List.Pairwise.forall_of_forall_of_flip (fun _ _ _ => rfl) apart apart' first second same

/-- What a handle that open has returned says of its files. -/
structure Entered (opened : Host) (infos : List SegmentInfo) (walk : Walk) (batches : List Batch) : Prop where
  ready : Ready opened
  surveys : Surveys (opened.store.content .database) opened.db.dataEnd opened.db.installed opened.db.generation
    opened.db.liveBatches opened.db.retention infos walk
  top : opened.db.installed ≤ uint64Max
  held : Holds (opened.store.content .wal) 32 (frames (opened.db.installed + 1) batches)
  whole : opened.db.walEnd = 32 + framesSize batches
  few : batches.length ≤ uint64Max
  pending : sub64 opened.db.sequence opened.db.installed = batches.length

/-- The segments that a reader of the handle goes through. -/
def placesOf (opened : Host) : List (Nat × SegmentInfo) :=
  segmentsFrom (opened.store.content .database) opened.db.dataEnd opened.db.generation 160

/-- Rewind, then next until an error: the sequence numbers increase, every batch
read from a segment is inside it, and a reader that comes to the end has had as
many batches as the status says. -/
def Exact (opened : Host) : Prop :=
  ∀ host items error, opened.call .rewind = (.ok .none, host) → Drains host items error →
    (items.map (·.1)).Pairwise (· < ·) ∧
    (∀ item ∈ items, item.2.db.inWal = false → ∃ place ∈ placesOf opened,
      item.2.db.segmentEnd = placeEnd place ∧ place.2.first ≤ item.1 ∧ item.1 ≤ place.2.last) ∧
    (error = .endOfData → ∀ status, opened.call .getStatus = (.ok (.status status), opened) →
      items.length = status.committedBatches)

theorem rewind_call (ready : Ready opened) : opened.call .rewind = (.ok .none, ⟨opened.store, resetCursor opened.db⟩) := by
  refine call_of_run ?_
  simp only [Act.perform, batchesRewind, batchReady, ready.1, ready.2]
  rfl

theorem status_call (ready : Ready opened) : ∃ status, opened.call .getStatus = (.ok (.status status), opened) ∧
    status.committedBatches = opened.db.liveBatches + sub64 opened.db.sequence opened.db.installed := by
  cases asked : batchesGetStatus opened.db with
  | error error =>
      simp only [batchesGetStatus, batchReady, ready.1, ready.2] at asked
      cases asked
  | ok status =>
      refine ⟨status, call_of_run ?_, ?_⟩
      · simp only [Act.perform, asked]
        rfl
      · simp only [batchesGetStatus, batchReady, ready.1, ready.2] at asked
        cases asked
        rfl

theorem matches_map {items : List (Nat × Host)} {met : List Met} (each : List.Forall₂ Matches items met) :
    items.map (·.1) = met.map (·.1) := by
  induction each with
  | nil => rfl
  | cons same _ ih => rw [List.map_cons, List.map_cons, same.1, ih]

theorem matches_mem {items : List (Nat × Host)} {met : List Met} (each : List.Forall₂ Matches items met)
    {item : Nat × Host} (member : item ∈ items) : ∃ other ∈ met, Matches item other := by
  induction each with
  | nil => cases member
  | cons same _ ih =>
      rcases List.mem_cons.mp member with rfl | inside
      · exact ⟨_, List.mem_cons_self, same⟩
      · obtain ⟨other, there, matching⟩ := ih inside
        exact ⟨other, List.mem_cons_of_mem _ there, matching⟩

theorem matches_mem' {items : List (Nat × Host)} {met : List Met} (each : List.Forall₂ Matches items met)
    {other : Met} (member : other ∈ met) : ∃ item ∈ items, Matches item other := by
  induction each with
  | nil => cases member
  | cons same _ ih =>
      rcases List.mem_cons.mp member with rfl | inside
      · exact ⟨_, List.mem_cons_self, same⟩
      · obtain ⟨item, there, matching⟩ := ih inside
        exact ⟨item, List.mem_cons_of_mem _ there, matching⟩

-- The places of a tour are the segments.
theorem tour_places {pending : List Met} {places : List (Nat × SegmentInfo)} {expected : Nat}
    (bare : ∀ item ∈ pending, item.2 = none) {item : Met} (member : item ∈ (tour d enabled pending places expected).1)
    (laid : Laid d limit installed enabled offset floor places) : ∀ place, item.2 = some place → place ∈ places := by
  induction places generalizing expected offset floor with
  | nil =>
      intro place some_
      rw [bare item member] at some_
      cases some_
  | cons first rest ih =>
      obtain ⟨position, found, _, _, later⟩ := laid
      have counted := (header_in found).order
      have top := (header_in found).top
      rw [tour] at member
      split at member
      · have inner : item ∈ meet (some first) (bodyRun d first.1 first.2).1.length first.2.first →
            ∀ place, item.2 = some place → place ∈ first :: rest := by
          intro here place some_
          rw [((mem_meet (by omega) item).mp here).1] at some_
          cases some_
          exact List.mem_cons_self
        simp only at member
        cases run : (bodyRun d first.1 first.2).2 with
        | none =>
            rw [run] at member
            exact inner member
        | some next =>
            rw [run] at member
            rcases List.mem_append.mp member with here | behind
            · exact inner here
            · exact fun place some_ => List.mem_cons_of_mem _ (ih behind later place some_)
      · cases member

/-- The promises of a handle are those of its tour. -/
theorem exact_kept {infos : List SegmentInfo} {walk : Walk} {batches : List Batch}
    (entered : Entered opened infos walk batches) :
    Exact opened ↔ Kept (placesOf opened) batches.length
      (tour (opened.store.content .database) opened.db.retention (meet none batches.length (next64 opened.db.installed))
        (placesOf opened) 1) := by
  obtain ⟨laid, live⟩ := laid_of_passed entered.surveys.passed entered.surveys.ends entered.surveys.covered
  have start : (startWalk 160).offset = 160 ∧ (startWalk 160).sequence = 0 ∧ (startWalk 160).live = 0 := ⟨rfl, rfl, rfl⟩
  rw [entered.surveys.count, start.1] at laid live
  rw [start.2.1] at laid
  rw [start.2.2, Nat.add_zero, entered.surveys.live] at live
  change Laid _ _ _ _ _ _ (placesOf opened) at laid
  change total (placesOf opened) = _ at live
  have rewound := rewind_call entered.ready
  have before : Before opened.store (placesOf opened) (resetCursor opened.db) _ _ :=
    .body 0 0 opened.db.installed (0, ⟨0, 0, 0, 0, 0, 0, 0, 32, false⟩) (placesOf opened) batches rfl (Nat.le_refl _)
      (Nat.le_of_eq (Nat.sub_self _)) (fun more => absurd more (Nat.lt_irrefl _)) laid (fun _ member => member) entered.held entered.whole
  simp only [frameRun, List.length_nil, meet, List.nil_append] at before
  change Before opened.store (placesOf opened) (resetCursor opened.db)
    (tour (opened.store.content .database) opened.db.retention (meet none batches.length (next64 opened.db.installed))
      (placesOf opened) 1).1
    (tour (opened.store.content .database) opened.db.retention (meet none batches.length (next64 opened.db.installed))
      (placesOf opened) 1).2 at before
  have places := fun item member => @tour_places opened.db.installed 160 0 opened.db.dataEnd
    (opened.store.content .database) opened.db.retention (meet none batches.length (next64 opened.db.installed))
    (placesOf opened) 1 (fun item member => ((mem_meet (next64_lt _) item).mp member).1) item member laid
  generalize tour (opened.store.content .database) opened.db.retention
    (meet none batches.length (next64 opened.db.installed)) (placesOf opened) 1 = met at before places
  have ready : Ready ⟨opened.store, resetCursor opened.db⟩ := entered.ready
  constructor
  · intro exact_
    obtain ⟨items, error, drains, each, ends⟩ := drains_all ready before
    obtain ⟨climbs, within, counted⟩ := exact_ _ items error rewound drains
    rw [matches_map each] at climbs
    refine ⟨climbs, fun other member place some_ => ?_, fun reached => ?_⟩
    · obtain ⟨item, inside, same, tells⟩ := matches_mem' each member
      rw [Tells, some_] at tells
      obtain ⟨place', there, ends', low, high⟩ := within item inside tells.1
      have equal := laid_unique laid there (places other member place some_) (ends'.symm.trans tells.2)
      rw [equal, same] at low high
      exact ⟨low, high⟩
    · obtain ⟨status, asked, committed⟩ := status_call entered.ready
      have length := counted (ends reached) status asked
      rw [committed, entered.pending, List.Forall₂.length_eq each] at length
      rw [length, live]
  · rintro ⟨climbs, within, counted⟩ host items error rewound' drains
    rw [rewound] at rewound'
    cases rewound'
    obtain ⟨taken, later, shape, each, ends⟩ := drains_before ready drains before
    rw [shape, List.map_append] at climbs
    refine ⟨?_, fun item member outside => ?_, fun reached status asked => ?_⟩
    · rw [matches_map each]
      exact (List.pairwise_append.mp climbs).1
    · obtain ⟨other, inside, same, tells⟩ := matches_mem each member
      have there : other ∈ met.1 := by
        rw [shape]
        exact List.mem_append_left _ inside
      cases place : other.2 with
      | none =>
          rw [Tells, place] at tells
          simp only at tells
          rw [outside] at tells
          cases tells
      | some place' =>
          rw [Tells, place] at tells
          rw [same]
          exact ⟨place', places other there place' place, tells.2, within other there place' place⟩
    · obtain ⟨none, all⟩ := ends reached
      obtain ⟨status', asked', committed⟩ := status_call entered.ready
      rw [asked'] at asked
      cases asked
      have length := counted all
      rw [shape, none, List.append_nil] at length
      rw [committed, entered.pending, List.Forall₂.length_eq each, length, live]

end Promises

section Opening
variable {store : Store} {opened : Host} {db : Batches} {mode : OpenMode} {scratchSize : Nat}

/-- A successful open has validated the pair and recovered it. -/
theorem opened_recovered (present : Present store)
    (ran : Host.call ⟨store, db⟩ (.openPair mode scratchSize) = (.ok .none, opened)) :
    ∃ v finished, Accepted store v ∧ Recovered store v finished opened.store ∧ opened.db = v.handle finished := by
  obtain ⟨closed, large, old⟩ := opens_only present ran
  rw [call_open present closed large old] at ran
  have whole := reads_validatePair.on_eq store
  cases read : (on validatePair store).1 with
  | error error =>
      rw [read] at whole
      have failed : on recovering store = (.error error, store) := on_bind_error whole
      rw [failed] at ran
      cases ran
  | ok v =>
      rw [read] at whole
      have front : on recovering store = on (recoverPair v) store := on_bind_ok whole
      rcases recover_cases (accepted read) with ⟨finished, after, through, recovered⟩ | ⟨_, _, failed⟩ |
        ⟨_, _, _, after, failed, _⟩
      · rw [front, through] at ran
        cases ran
        exact ⟨v, finished, accepted read, recovered, rfl⟩
      · rw [front, failed] at ran
        cases ran
      · rw [front, failed] at ran
        cases ran

/-- The frames of the WAL that open leaves. -/
theorem opened_pending {v : Validated} {finished : Finished} {after : Store} (accepted : Accepted store v)
    (recovered : Recovered store v finished after) :
    ∃ batches, Holds (after.content .wal) 32 (frames (v.manifests.last + 1) batches) ∧
      v.walOffset = 32 + framesSize batches ∧ batches.length ≤ uint64Max ∧
      sub64 v.scan.sequence v.manifests.last = batches.length ∧
      (Overrun store ↔ uint64Max < v.manifests.last + batches.length) := by
  have large : uint64Max = 18446744073709551615 := rfl
  have cap : walCapacity = 67108864 := rfl
  have top := chosen_last accepted.found
  have fits := accepted.most
  cases fresh : v.stale with
  | true =>
      have last : v.scan.sequence = v.manifests.last := accepted.ends fresh
      refine ⟨[], holds_nil _ _, by rw [Validated.walOffset, fresh, if_pos rfl, frames_size_nil], Nat.zero_le _, ?_, ?_⟩
      · rw [last, sub64_eq (Nat.le_refl _) top, Nat.sub_self]
        rfl
      · refine iff_of_false (stale_within accepted fresh) ?_
        rw [List.length_nil]
        omega
  | false =>
      obtain ⟨batches, held, offset, within, sequence⟩ := accepted_scan accepted fresh
      have few := frames_size_ge batches
      have place : v.walOffset = v.scan.offset := by rw [Validated.walOffset, fresh, if_neg (by decide)]
      refine ⟨batches, ?_, place.trans offset, by omega, ?_, ?_⟩
      · rw [recovered.wal]
        split
        · refine held.resize _ ?_
          rw [frames_length]
          omega
        · exact held
      · rw [sequence]
        simp only [sub64]
        omega
      · constructor
        · rintro ⟨m, others, found, beyond, there⟩
          have same : m = v.manifests := Option.some.inj (found.symm.trans accepted.found)
          subst same
          have all := scan_counts accepted fresh offset within sequence there
          omega
        · exact fun beyond => ⟨v.manifests, batches, accepted.found, beyond, held⟩

end Opening

/-- The bodies hold what the headers announce, and the WAL does not count past the
largest sequence number behind a segment. -/
def Counted (store : Store) : Prop :=
  ∀ m, chosen (store.content .database) = some m →
    Counts (store.content .database) m.state.enabled (¬ Overrun store ∨ (m.last = uint64Max ∧ m.generation = 0))
      (segmentsFrom (store.content .database) m.dataEnd m.generation m.state.root) 0

section Exactness
variable {store : Store} {opened : Host} {db : Batches} {mode : OpenMode} {scratchSize : Nat}

-- A handle without segments has generation 0.
theorem places_nil {d : Bytes} {limit : Nat} {enabled : Bool} {infos : List SegmentInfo} {walk last : Walk} {n : Nat}
    (passed : Passed d limit enabled walk n infos last) : segmentsFrom d limit infos.length walk.offset = [] ↔ infos.length = 0 := by
  cases passed with
  | done walk n => exact iff_of_true rfl rfl
  | more admits rest =>
      rw [List.length_cons, segments_cons admits.found]
      exact iff_of_false (List.cons_ne_nil _ _) (Nat.succ_ne_zero _)

theorem recovered_counts {v : Validated} {finished : Finished} {after : Store} {infos : List SegmentInfo} {walk : Walk}
    {ends : Prop} (surveys : Surveys (after.content .database) finished.dataEnd v.manifests.last v.manifests.generation
      v.checked.live v.manifests.state.enabled infos walk)
    (kept : v.manifests.state.phase ≠ 2 → v.manifests.state.root = 160 ∧ finished.dataEnd = v.manifests.dataEnd ∧
      Agree (store.content .database) (after.content .database) 160 v.manifests.dataEnd)
    (copied : v.manifests.state.phase = 2 → Tiling (after.content .database) 160 infos ∧ ∃ infos' walk',
      Passed (store.content .database) v.manifests.dataEnd v.manifests.state.enabled (startWalk v.manifests.state.root) 1
        infos' walk' ∧ infos'.length = v.manifests.generation ∧
      Tiling (store.content .database) v.manifests.state.root infos') :
    Counts (after.content .database) v.manifests.state.enabled ends
        (segmentsFrom (after.content .database) finished.dataEnd v.manifests.generation 160) 0 ↔
      Counts (store.content .database) v.manifests.state.enabled ends
        (segmentsFrom (store.content .database) v.manifests.dataEnd v.manifests.generation v.manifests.state.root) 0 := by
  by_cases copying : v.manifests.state.phase = 2
  · obtain ⟨tiling, infos', walk', passed, count, tiling'⟩ := copied copying
    have left := @counts_tiled _ _ _ 0 _ ends _ _ _ surveys.passed tiling
    have right := @counts_tiled _ _ _ 0 _ ends _ _ _ passed tiling'
    rw [surveys.count] at left
    rw [count] at right
    exact left.trans right.symm
  · obtain ⟨root, dataEnd, same⟩ := kept copying
    obtain ⟨laid, _⟩ := laid_of_passed surveys.passed surveys.ends surveys.covered
    rw [surveys.count] at laid
    rw [root, ← dataEnd]
    rw [← dataEnd] at same
    rw [segments_agree same]
    exact counts_agree laid same.symm

/-- Rewind and next deliver what the headers promise, exactly when the bodies hold what the headers announce. -/
theorem next_exact (present : Present store)
    (ran : Host.call ⟨store, db⟩ (.openPair mode scratchSize) = (.ok .none, opened)) : Exact opened ↔ Counted store := by
  obtain ⟨v, finished, accepted, recovered, shape⟩ := opened_recovered present ran
  obtain ⟨after, db'⟩ := opened
  simp only at recovered shape
  subst shape
  obtain ⟨infos, walk, surveys, kept, copied⟩ := recovered_surveys accepted recovered
  obtain ⟨batches, held, whole, few, pending, overrun⟩ := opened_pending accepted recovered
  have top := chosen_last accepted.found
  have enabled := recovered.enabled
  have surveys' := surveys
  rw [← enabled] at surveys'
  have entered : Entered ⟨after, v.handle finished⟩ infos walk batches :=
    ⟨⟨rfl, rfl⟩, surveys', top, held, whole, few, pending⟩
  obtain ⟨laid, _⟩ := laid_of_passed surveys'.passed surveys'.ends surveys'.covered
  have bare := places_nil surveys'.passed
  rw [surveys'.count] at laid bare
  have kept' := kept_iff laid top few
  have ends : (v.manifests.last + batches.length ≤ uint64Max ∨ (v.manifests.last = uint64Max ∧
      segmentsFrom (after.content .database) finished.dataEnd v.manifests.generation 160 = [])) =
      (¬ Overrun store ∨ (v.manifests.last = uint64Max ∧ v.manifests.generation = 0)) := by
    refine propext (or_congr ?_ (and_congr Iff.rfl bare))
    rw [overrun, Nat.not_lt]
  have whole' := (exact_kept entered).trans kept'
  rw [enabled] at whole'
  refine whole'.trans ?_
  change Counts _ _ (v.manifests.last + batches.length ≤ uint64Max ∨ (v.manifests.last = uint64Max ∧
      segmentsFrom (after.content .database) finished.dataEnd v.manifests.generation 160 = []))
    (segmentsFrom (after.content .database) finished.dataEnd v.manifests.generation 160) 0 ↔ _
  rw [ends, recovered_counts surveys kept copied]
  constructor
  · intro counts m found
    rw [accepted.found] at found
    cases found
    exact counts
  · exact fun counted => counted v.manifests accepted.found

end Exactness

def sixBatch : Batch := ⟨List.replicate 6 ⟨7, 5, -1⟩, by decide, by decide⟩

/-- One segment that announces two batches; its body is one frame. -/
def shortStore : Store where
  database := some (settled (encodePair databaseMagic (List.replicate 16 7) ++ List.replicate 64 0 ++
    encodeManifest 1 408 2 5 160 ++ encodeSegment 1 2 184 5 5 0 0 true ++ frame 1 sixBatch.records))
  wal := some (settled (encodePair walMagic (List.replicate 16 7)))
  entropy := []

-- The end comes after one batch, and the status counts two.
theorem short_misses : ∃ opened : Host,
    Host.call ⟨shortStore, batchesInit⟩ (.openPair .openExisting batchScratch) = (.ok .none, opened) ∧ ¬ Exact opened := by
  generalize shape : Host.call ⟨shortStore, batchesInit⟩ (.openPair .openExisting batchScratch) = outcome
  have facts : (Host.call ⟨shortStore, batchesInit⟩ (.openPair .openExisting batchScratch)).1 = .ok .none ∧
      ((Host.call ⟨shortStore, batchesInit⟩ (.openPair .openExisting batchScratch)).2.call .rewind).1 = .ok .none ∧
      (((Host.call ⟨shortStore, batchesInit⟩ (.openPair .openExisting batchScratch)).2.call .rewind).2.call
        (.next 64 batchScratch)).1 = .ok (.batch 1 sixBatch.records) ∧
      ((((Host.call ⟨shortStore, batchesInit⟩ (.openPair .openExisting batchScratch)).2.call .rewind).2.call
        (.next 64 batchScratch)).2.call (.next 64 batchScratch)).1 = .error .endOfData ∧
      (Host.call ⟨shortStore, batchesInit⟩ (.openPair .openExisting batchScratch)).2.call .getStatus =
        (.ok (.status ⟨2, 2, 0, 1, 32, 248, 5⟩),
          (Host.call ⟨shortStore, batchesInit⟩ (.openPair .openExisting batchScratch)).2) := by
    decide +kernel
  rw [shape] at facts
  obtain ⟨opens, rewinds, first, ends, status⟩ := facts
  refine ⟨outcome.2, Prod.ext opens rfl, fun exact_ => ?_⟩
  have drains : Drains (outcome.2.call .rewind).2 [(1, ((outcome.2.call .rewind).2.call (.next 64 batchScratch)).2)]
      .endOfData := .more (Prod.ext first rfl) (.stop (Prod.ext ends rfl))
  have counted := (exact_ _ _ _ (Prod.ext rewinds rfl) drains).2.2 rfl _ status
  cases counted

theorem next_inexact : ¬ ∀ (store : Store) (opened : Host), Present store →
    Host.call ⟨store, batchesInit⟩ (.openPair .openExisting batchScratch) = (.ok .none, opened) → Exact opened := by
  intro exact_
  obtain ⟨opened, ran, misses⟩ := short_misses
  exact misses (exact_ shortStore opened ⟨rfl, rfl⟩ ran)

theorem next_exact_short : ¬ Counted shortStore := by
  obtain ⟨opened, ran, misses⟩ := short_misses
  have present : Present shortStore := ⟨rfl, rfl⟩
  exact fun counted => misses ((next_exact present ran).mpr counted)

end Timelite.Enumerating
