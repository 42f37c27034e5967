import Timelite.Seeking

/-!
Range reads: the reader passes over batches without a matching record and stops
early only where every later record is known to be too late.
-/
namespace Timelite.Ranging
open ByteFile Program Codec CodecLaws Backend BackendLaws Layout FrameLaws HeaderWalk SegmentLaws WalLaws Contents Images
  Crashes Calls Cursor Reader BatchApi Spans Seeking

section Matching

def inRange (range : Range) (record : Record) : Bool :=
  decide (record.timestamp.toNat ≥ range.from_us ∧ record.timestamp.toNat < range.until_us ∧
    (range.filterSeries = 0 ∨ record.series.toNat = range.series))

/-- The records of the batch that the range asks for. -/
def hits (range : Range) (batch : Batch) : List Record := batch.records.filter (inRange range)

theorem record_matches (range : Range) (sequence : Nat) {batch : Batch} {i : Nat} {record : Record}
    (found : batch.records[i]? = some record) :
    recordMatches (frameRecord (frameOf sequence batch) i) range = inRange range record := by
  obtain ⟨series, time, _⟩ := record_fields (@frame_record sequence _ _ _ found)
  have later : (frameRecord (frameOf sequence batch) i).drop 4 =
      (frame sequence batch.records).drop (32 + i * 20 + 4) := by
    rw [frameRecord, List.drop_drop]
    rfl
  unfold recordMatches inRange
  simp only
  rw [later, time]
  have front : decode32 (frameRecord (frameOf sequence batch) i) = record.series.toNat := series
  rw [front]

theorem matching_records (range : Range) (sequence : Nat) (batch : Batch) :
    matchingRecords (frameOf sequence batch) range = hits range batch := by
  have all := frame_records sequence batch
  have same : (List.range (frameOf sequence batch).records).filter (fun i =>
      recordMatches (frameRecord (frameOf sequence batch) i) range) =
      (List.range (frameOf sequence batch).records).filter
        (inRange range ∘ fun i => decodeRecord (frameRecord (frameOf sequence batch) i)) := by
    refine List.filter_congr fun i member => ?_
    have inside : i < batch.records.length := List.mem_range.mp member
    have found : batch.records[i]? = some batch.records[i] := List.getElem?_eq_getElem inside
    have record := decode_record (@frame_record sequence _ _ _ found)
    rw [record_matches range sequence found, Function.comp_apply]
    exact congrArg (inRange range) record.symm
  rw [matchingRecords, same, hits, ← List.filter_map]
  exact congrArg _ all

-- The batch has a record that the range asks for.
def hasHit (range : Range) (item : Nat × Batch) : Bool := !(hits range item.2).isEmpty

end Matching

section Scanning
variable {store : Store} {db : Batches} {rest : List (Nat × Batch)} {range : Range}

theorem reads_nextMatch (db : Batches) (range : Range) (capacity ordered fuel : Nat) (cursor : Batches) :
    Reads (nextMatch db range capacity ordered fuel cursor) := by
  induction fuel generalizing cursor with
  | zero => exact reads_fail _
  | succ fuel ih =>
      refine reads_bind (reads_readCursor _) fun delivery => reads_ite (reads_ite (reads_fail _) (reads_pure _)) ?_
      exact reads_ite (reads_fail _) (ih _)

/-- The batch at which the reader may stop early. -/
def Halts (db : Batches) (range : Range) (ordered : Nat) (item : Nat × Batch) : Prop :=
  item.1 ≥ ordered ∧ db.walOrdered = true ∧ Batch.firstTime item.2 ≥ range.until_us

/-- What a range read gives that stops behind the batches `rest` of `all`. -/
def Finds (store : Store) (R : Batches → List (Nat × Batch) → Prop) (db : Batches) (range : Range) (capacity : Nat)
    (read : Io (Nat × List Record × Batches)) (all rest : List (Nat × Batch)) : Prop :=
  match rest.find? (hasHit range) with
  | some item =>
      if (hits range item.2).length > capacity then on read store = (.error .bufferTooSmall, store)
      else ∃ db' passed later, on read store = (.ok (item.1, hits range item.2, db'), store) ∧ Moved db db' ∧
        all = passed ++ item :: later ∧ (∀ other ∈ passed, hasHit range other = false) ∧ R db' later
  | none => on read store = (.error .endOfData, store)

/-- A batch without a hit at which the reader stops. -/
def stops (db : Batches) (range : Range) (ordered : Nat) (item : Nat × Batch) : Bool :=
  !hasHit range item &&
    decide (item.1 ≥ ordered ∧ db.walOrdered = true ∧ Batch.firstTime item.2 ≥ range.until_us)

-- The reader finds the first batch with a hit among those before the first stop.
theorem next_reached {R : Batches → List (Nat × Batch) → Prop} {base : Batches} {capacity ordered fuel : Nat}
    (feeds : Feeds store R) (here : R db rest) (enough : rest.length < fuel) :
    Finds store R db range capacity (nextMatch base range capacity ordered fuel db) rest
      (rest.takeWhile fun item => !stops base range ordered item) := by
  induction rest generalizing db fuel with
  | nil =>
      obtain ⟨fuel, rfl⟩ : ∃ k, fuel = k + 1 := ⟨fuel - 1, by simp at enough; omega⟩
      have read : on (readCursor db) store = (.error .endOfData, store) := feeds db [] here
      exact on_bind_error read
  | cons item later ih =>
      obtain ⟨fuel, rfl⟩ : ∃ k, fuel = k + 1 := ⟨fuel - 1, by simp at enough; omega⟩
      rw [List.length_cons] at enough
      obtain ⟨db', ran, moved, _, next⟩ := feeds db (item :: later) here
      have start : on (nextMatch base range capacity ordered (fuel + 1) db) store =
          if (hits range item.2).length ≠ 0 then
            if (hits range item.2).length > capacity then (.error .bufferTooSmall, store)
            else (.ok (item.1, hits range item.2, db'), store)
          else if item.1 ≥ ordered ∧ base.walOrdered = true ∧ Batch.firstTime item.2 ≥ range.until_us then
            (.error .endOfData, store)
          else on (nextMatch base range capacity ordered fuel db') store := by
        rw [nextMatch, on_bind_ok ran]
        simp only [matching_records, first_frame_time]
        rw [on_ite, on_ite, on_ite]
        rfl
      by_cases hit : (hits range item.2).length ≠ 0
      · have matches_ : hasHit range item = true := by
          simpa [hasHit, List.isEmpty_iff, ← List.length_eq_zero_iff] using hit
        unfold Finds
        rw [List.takeWhile_cons_of_pos (by simp [stops, matches_]), List.find?_cons_of_pos matches_, start, if_pos hit]
        simp only
        split
        · rfl
        · exact ⟨db', [], later, rfl, moved, rfl, fun _ none => absurd none List.not_mem_nil, next⟩
      · have matches_ : hasHit range item = false := by
          simpa [hasHit, List.isEmpty_iff, ← List.length_eq_zero_iff] using hit
        by_cases halt : item.1 ≥ ordered ∧ base.walOrdered = true ∧ Batch.firstTime item.2 ≥ range.until_us
        · rw [List.takeWhile_cons_of_neg (by simpa [stops, matches_] using halt)]
          exact start.trans ((if_neg hit).trans (if_pos halt))
        · rw [if_neg hit, if_neg halt] at start
          have finds := @ih db' fuel next (by omega)
          rw [List.takeWhile_cons_of_pos (by rw [stops, decide_eq_false halt, Bool.and_false]; rfl)]
          unfold Finds at finds ⊢
          rw [List.find?_cons_of_neg (by rw [matches_]; exact Bool.false_ne_true), start]
          cases found : (later.takeWhile fun item => !stops base range ordered item).find? (hasHit range) with
          | none =>
              rw [found] at finds
              exact finds
          | some other =>
              rw [found] at finds
              simp only at finds ⊢
              split at finds
              · rename_i large
                rw [if_pos large]
                exact finds
              · rename_i large
                obtain ⟨db'', passed, behind, ran', moved', split, none, there⟩ := finds
                rw [if_neg large]
                refine ⟨db'', item :: passed, behind, ran', moved_trans moved moved', by rw [split]; rfl, ?_, there⟩
                intro other member
                rcases List.mem_cons.mp member with rfl | inside
                · exact matches_
                · exact none other inside

end Scanning

section Order
variable {store : Store} {db : Batches} {content : Content} {range : Range}

/-- The times of the records from a sequence number on. -/
def timesDue (content : Content) (sequence : Nat) : List Nat := (due content sequence).flatMap fun item => item.2.times

theorem number_times (sequence : Nat) (batches : List Batch) :
    ((number sequence batches).flatMap fun item => item.2.times) = timesOf batches := by
  induction batches generalizing sequence with
  | nil => rfl
  | cons batch rest ih => rw [number, List.flatMap_cons, ih, times_cons]

theorem segments_times (segments : List Segment) :
    ((segments.flatMap Segment.numbered).flatMap fun item => item.2.times) = timesIn segments := by
  induction segments with
  | nil => rfl
  | cons segment rest ih =>
      rw [List.flatMap_cons, List.flatMap_append, ih, Segment.numbered, number_times, timesIn, timesIn,
        List.flatMap_cons]
      rfl

theorem suffix_split {segments : List Segment} (inside : spanStart segments ≤ segments.length) :
    ∃ segment back, segments[spanStart segments - 1]? = some segment ∧ suffix segments = segment :: back ∧
      segments = segments.take (spanStart segments - 1) ++ segment :: back := by
  have bounds := span_start_bounds segments
  obtain ⟨segment, found⟩ : ∃ segment, segments[spanStart segments - 1]? = some segment :=
    ⟨_, List.getElem?_eq_getElem (show spanStart segments - 1 < segments.length by omega)⟩
  obtain ⟨bound, same⟩ := List.getElem?_eq_some_iff.mp found
  refine ⟨segment, segments.drop (spanStart segments - 1 + 1), found, ?_, nth_split found⟩
  rw [suffix, List.drop_eq_getElem_cons bound, same]

-- The maximum that a WAL behind the suffix is compared with.
theorem latest_time {identity : Bytes} {m : Manifests} (serving : Serving store db identity content m)
    (truthful : ∀ segment ∈ content.segments, segment.Truthful)
    (inside : spanStart content.segments ≤ content.segments.length) (some : content.pending ≠ [])
    (info : SegmentInfo) :
    ∃ last, on (latestSegment db info) store = (.ok last, store) ∧
      finalOf (timesIn (suffix content.segments)) = if db.retention then last.maximum else db.installedTime := by
  have tracks := serving.tracks
  have fresh : db.walEnd ≠ 32 := by
    rw [tracks.walEnd]
    exact fun fresh => some ((Checkpointing.wal_end_fresh content).mp fresh)
  have bounds := span_start_bounds content.segments
  have sorted := suffix_sorted truthful
  obtain ⟨first, back, _, shape, _⟩ := suffix_split inside
  have final := suffix_final truthful sorted.1 (by rw [shape]; exact List.cons_ne_nil _ _)
  obtain ⟨front, last, split⟩ := (List.eq_nil_or_concat' content.segments).resolve_left (by
    intro none
    rw [none] at inside bounds
    simp only [List.length_nil] at inside
    omega)
  have final' : content.segments.getLast? = Option.some last := by rw [split, List.getLast?_concat]
  have member : last ∈ suffix content.segments := by
    have tail : (suffix content.segments).getLast? = content.segments.getLast? := by
      rw [suffix, List.getLast?_drop, if_neg (by omega)]
    exact List.mem_of_getLast? (tail.trans final')
  have ordered := sorted.1 last member
  rw [final, priorMaximum, final']
  simp only [Option.map_some, Option.getD_some, ordered_wide ordered, if_true]
  by_cases retention : db.retention = true
  · have count : content.segments.length = front.length + 1 := by rw [split, List.length_append, List.length_singleton]
    have found : content.segments[front.length]? = Option.some last := by rw [split]; simp
    have read := serving.chained.read_nth found
    rw [← count] at read
    refine ⟨infoAt 160 content.segments front.length last, ?_, by rw [if_pos retention, info_at_maximum]⟩
    rw [latestSegment, if_pos ⟨retention, fresh⟩, tracks.lastSegment, tracks.dataEnd]
    exact read
  · have off : m.state.enabled = false := by
      rw [← serving.retention]
      simpa using retention
    refine ⟨info, ?_, ?_⟩
    · rw [latestSegment, if_neg fun both => retention both.1]
      rfl
    · have time := serving.installed.time
      rw [statedTime, final'] at time
      simp only [ordered, off, and_self, if_true] at time
      rw [if_neg retention, tracks.installedTime, time]

theorem reads_orderedSequence (db : Batches) : Reads (orderedSequence db) := by
  refine reads_ite (reads_pure _) (reads_ite (reads_bind (reads_segmentAt _ _ _ _) fun found => ?_) (reads_pure _))
  split
  refine reads_bind (reads_ite (reads_readSegment _ _ _) (reads_pure _)) fun last => reads_ite (reads_pure _) (reads_pure _)

theorem times_queued (content : Content) : timesDue content (content.installed + 1) = timesOf content.pending := by
  have ahead : Ahead (positionWal batchesInit 32 ((content.installed + 1) % 18446744073709551616)) content
      (content.installed + 1) content.queued := .wal [] content.pending rfl rfl rfl rfl
  rw [timesDue, ← ahead.due]
  exact number_times _ _

theorem times_suffix {first : Segment} {back : List Segment} (shape : suffix content.segments = first :: back)
    (split : content.segments = content.segments.take (spanStart content.segments - 1) ++ first :: back) :
    timesDue content first.first = timesIn (suffix content.segments) ++ timesOf content.pending := by
  have ahead := @ahead_segment content _ back first batchesInit (infoAt 160 content.segments 0 first) split rfl rfl rfl
  rw [timesDue, ← ahead.due, List.flatMap_append, segments_times, shape]
  congr 1
  exact number_times _ _

/-- The reader can tell from where on the batches are ordered: the number behind the last
installed one does not wrap, or a segment in order comes last, or there is no batch. -/
def Located (content : Content) : Prop :=
  content.installed < uint64Max ∨ spanStart content.segments ≤ content.segments.length ∨ content.exposed = []

/-- From the ordered sequence on, the records are in time order. -/
theorem ordered_sequence {identity : Bytes} {m : Manifests} (serving : Serving store db identity content m)
    (truthful : ∀ segment ∈ content.segments, segment.Truthful) :
    ∃ ordered, on (orderedSequence db) store = (.ok ordered, store) ∧
      (Located content → db.walOrdered = true → rising (timesDue content ordered) = true) := by
  have tracks := serving.tracks
  by_cases unordered : db.walOrdered = false
  · refine ⟨db.sequence, ?_, fun _ sorted => by rw [sorted] at unordered; cases unordered⟩
    rw [orderedSequence, if_pos unordered]
    rfl
  have queue : rising (timesOf content.pending) = true := by
    rw [← tracks.walOrdered]
    simpa using unordered
  have wal : content.installed < uint64Max → rising (timesDue content (next64 db.installed)) = true := by
    intro more
    rw [tracks.installed, next64, Nat.mod_eq_of_lt (by simp only [uint64Max] at more; omega), times_queued, queue]
  by_cases inside : spanStart content.segments ≤ content.segments.length
  · have bounds := span_start_bounds content.segments
    obtain ⟨segment, back, found, shape, split⟩ := suffix_split inside
    obtain ⟨k, start⟩ : ∃ k, spanStart content.segments = k + 1 := ⟨spanStart content.segments - 1, by omega⟩
    rw [start, Nat.add_sub_cancel] at found
    have located := segment_at serving.chained found
    have ran : ∀ {last : SegmentInfo}, on (latestSegment db (infoAt 160 content.segments k segment)) store =
        (.ok last, store) → on (orderedSequence db) store =
          if db.walEnd = 32 ∨ db.walFirstTime ≥ (if db.retention then last.maximum else db.installedTime) then
            (.ok segment.first, store)
          else (.ok (next64 db.installed), store) := by
      intro last read
      rw [orderedSequence, if_neg unordered, tracks.spanStart, tracks.generation, if_pos inside, tracks.dataEnd,
        tracks.lastSegment, start, on_bind_ok located]
      exact (on_bind_ok read).trans (on_ite _ _ _ _)
    have sorted := (suffix_sorted truthful).2
    by_cases empty : content.pending = []
    · obtain ⟨last, read⟩ : ∃ last, on (latestSegment db (infoAt 160 content.segments k segment)) store =
          (.ok last, store) := by
        refine ⟨infoAt 160 content.segments k segment, ?_⟩
        rw [latestSegment, if_neg]
        · rfl
        · rintro ⟨_, fresh⟩
          exact fresh (by rw [tracks.walEnd, Content.walEnd, empty]; rfl)
      refine ⟨segment.first, ?_, fun _ _ => ?_⟩
      · rw [ran read, if_pos (.inl (by rw [tracks.walEnd, Content.walEnd, empty]; rfl))]
      · rw [times_suffix shape split, empty, times_nil, List.append_nil]
        exact sorted
    · obtain ⟨last, read, final⟩ := latest_time serving truthful inside empty (infoAt 160 content.segments k segment)
      have fresh : ¬ db.walEnd = 32 := by
        rw [tracks.walEnd]
        exact fun fresh => empty ((Checkpointing.wal_end_fresh content).mp fresh)
      by_cases above : db.walFirstTime ≥ (if db.retention then last.maximum else db.installedTime)
      · refine ⟨segment.first, by rw [ran read, if_pos (.inr above)], fun _ _ => ?_⟩
        rw [times_suffix shape split, rising_append, sorted, queue, final, ← (tracks.walSpan empty).1]
        simp [above]
      · have numbered := content.numbered
        have some := List.length_pos_iff.mpr empty
        refine ⟨next64 db.installed, ?_, fun _ _ => wal (by omega)⟩
        rw [ran read, if_neg (by simp [fresh, above])]
  · refine ⟨next64 db.installed, ?_, fun located _ => ?_⟩
    · rw [orderedSequence, if_neg unordered, tracks.spanStart, tracks.generation, if_neg inside]
      rfl
    · rcases located with more | more | none
      · exact wal more
      · exact absurd more inside
      · rw [timesDue, due, none]
        rfl

end Order

section Range
variable {P : Bytes → Bytes → Prop} {store : Store} {db : Batches} {content : Content} {identity : Bytes} {m : Manifests}
  {range : Range} {position capacity scratchSize : Nat}

-- Behind a batch that may stop the reader every batch is too late.
theorem halts_late {ordered : Nat} {item other : Nat × Batch} {later : List (Nat × Batch)}
    (sorted : rising (timesDue content ordered) = true) (halts : Halts db range ordered item)
    (split : due content item.1 = item :: later) (member : other ∈ later) : hasHit range other = false := by
  have pairs := (List.pairwise_flatMap.mp (rising_iff.mp sorted)).2.filter fun other => decide (item.1 ≤ other.1)
  rw [← due_later halts.1, split] at pairs
  have first : Batch.firstTime item.2 ∈ item.2.times := by
    rw [← batch_first]
    exact first_mem (batch_times_ne item.2)
  have below := List.rel_of_pairwise_cons pairs member
  have until_ := halts.2.2
  rw [hasHit, hits, Bool.not_eq_false', List.isEmpty_iff, List.filter_eq_nil_iff]
  intro record inside
  have late := below _ first record.timestamp.toNat (List.mem_map.mpr ⟨record, inside, rfl⟩)
  simp only [inRange, decide_eq_true_eq]
  omega

-- Where the times rise from the ordered sequence on, no match is behind a stop.
theorem stops_late {ordered : Nat} {rest : List (Nat × Batch)} (ahead : due content position = rest)
    (sorted : db.walOrdered = true → rising (timesDue content ordered) = true) :
    (rest.takeWhile fun item => !stops db range ordered item).find? (hasHit range) = rest.find? (hasHit range) := by
  have split := @List.takeWhile_append_dropWhile _ (fun item => !stops db range ordered item) rest
  generalize rest.takeWhile (fun item => !stops db range ordered item) = front at split ⊢
  cases behind : rest.dropWhile fun item => !stops db range ordered item with
  | nil =>
      rw [behind, List.append_nil] at split
      rw [split]
  | cons item later =>
      have stopped : stops db range ordered item = true := by
        have more : rest.dropWhile (fun item => !stops db range ordered item) ≠ [] := by
          rw [behind]
          exact List.cons_ne_nil _ _
        have first := List.head_dropWhile_not _ more
        simpa [behind] using first
      simp only [stops, Bool.and_eq_true, Bool.not_eq_true', decide_eq_true_eq] at stopped
      rw [behind] at split
      have none : (item :: later).find? (hasHit range) = none := by
        rw [List.find?_eq_none]
        intro other member
        rcases List.mem_cons.mp member with rfl | after
        · simp [stopped.1]
        · rw [halts_late (sorted stopped.2.2.1) stopped.2 (due_split (ahead.trans split.symm)) after]
          exact Bool.false_ne_true
      rw [← split, List.find?_append, none, Option.or_none]

/-- The refusals of a range read, before it looks for anything. -/
def rangeRefusal (range : Range) (scratchSize : Nat) : Option Error :=
  if range.from_us > range.until_us ∨ (range.filterSeries ≠ 0 ∧ range.filterSeries ≠ 1) then some (.errno .einval)
  else if scratchSize < batchScratch then some .bufferTooSmall
  else if range.from_us = range.until_us then some .endOfData
  else none

-- The result of a range read over the batches `rest`.
inductive RangeResult (db : Batches) (content : Content) (range : Range) (capacity : Nat)
    (rest : List (Nat × Batch)) : Except Error (Nat × List Record) × Batches → Prop where
  | batch (item : Nat × Batch) (db' : Batches) (found : rest.find? (hasHit range) = some item)
      (fits : (hits range item.2).length ≤ capacity) (moved : Moved db db') (delivers : Delivers db' content (item.1 + 1)) :
      RangeResult db content range capacity rest (.ok (item.1, hits range item.2), db')
  | large (item : Nat × Batch) (found : rest.find? (hasHit range) = some item)
      (small : capacity < (hits range item.2).length) :
      RangeResult db content range capacity rest (.error .bufferTooSmall, db)
  | none (late : Located content → rest.find? (hasHit range) = none) :
      RangeResult db content range capacity rest (.error .endOfData, db)

-- A range read that is not refused looks for its first match.
theorem range_starts {result : Except Error (Nat × List Record) × Batches} {ordered : Nat}
    (serving : Serving store db identity content m) (safe : Safe P store) (accepted : rangeRefusal range scratchSize = none)
    (located : on (orderedSequence db) store = (.ok ordered, store))
    (rest : Performs P (attempt db (nextMatch db range capacity ordered (cursorFuel db) db) fun (sequence, found, cursor) =>
      succeed (copyCursor db cursor) (sequence, found)) db store result store) :
    Performs P (batchesNextRange db range capacity scratchSize) db store result store := by
  unfold rangeRefusal at accepted
  unfold batchesNextRange
  rw [serving.batch_ready]
  simp only
  split at accepted
  · cases accepted
  rename_i valid
  rw [if_neg valid]
  split at accepted
  · cases accepted
  rename_i large
  rw [if_neg large]
  split at accepted
  · cases accepted
  rename_i wide
  rw [if_neg wide]
  exact calls_reads safe (reads_orderedSequence db) located rest

-- What the search of `rest` gives, the call returns.
theorem range_finds {rest : List (Nat × Batch)} {ordered : Nat} (serving : Serving store db identity content m)
    (safe : Safe P store) (accepted : rangeRefusal range scratchSize = none)
    (located : on (orderedSequence db) store = (.ok ordered, store))
    (finds : Finds store (Standing store content) db range capacity (nextMatch db range capacity ordered (cursorFuel db) db)
      (due content position) rest) :
    match rest.find? (hasHit range) with
    | some item =>
        if (hits range item.2).length > capacity then
          Performs P (batchesNextRange db range capacity scratchSize) db store (.error .bufferTooSmall, db) store
        else ∃ db', Performs P (batchesNextRange db range capacity scratchSize) db store
          (.ok (item.1, hits range item.2), db') store ∧ Moved db db' ∧ Delivers db' content (item.1 + 1)
    | none => Performs P (batchesNextRange db range capacity scratchSize) db store (.error .endOfData, db) store := by
  have reads := reads_nextMatch db range capacity ordered (cursorFuel db) db
  unfold Finds at finds
  cases found : rest.find? (hasHit range) with
  | none =>
      rw [found] at finds
      exact range_starts serving safe accepted located (calls_reads_error safe reads finds)
  | some item =>
      rw [found] at finds
      simp only at finds ⊢
      split at finds
      · rename_i large
        rw [if_pos large]
        exact range_starts serving safe accepted located (calls_reads_error safe reads finds)
      · rename_i small
        obtain ⟨db', passed, later, ran, moved, split, _, _, wanted, ahead⟩ := finds
        rw [if_neg small]
        have member : item ∈ due content position := by simp [split]
        have high := (exposed_bounds (List.mem_filter.mp member).1).2
        have due' := due_next (due_split split)
        exact ⟨db', range_starts serving safe accepted located
          (moved ▸ calls_reads safe reads ran (calls_done safe)), moved, by omega, wanted, due'.symm ▸ ahead⟩

/-- A range read returns the first batch with a hit, filtered. -/
theorem range_performs (serving : Serving store db identity content m)
    (truthful : ∀ segment ∈ content.segments, segment.Truthful) (safe : Safe P store)
    (delivers : Delivers db content position) (accepted : rangeRefusal range scratchSize = none) :
    ∃ result, Performs P (batchesNextRange db range capacity scratchSize) db store result store ∧
      RangeResult db content range capacity (due content position) result := by
  have reading := serving_reading serving
  obtain ⟨ordered, located, sorted⟩ := ordered_sequence serving truthful
  obtain ⟨_, wanted, ahead⟩ := delivers
  have finds := @next_reached store db (due content position) range (Standing store content) db capacity ordered
    (cursorFuel db) (standing_feeds store content) ⟨reading, wanted, ahead⟩ (cursor_fuel serving.tracks position)
  have performs := range_finds serving safe accepted located finds
  cases found : ((due content position).takeWhile fun item => !stops db range ordered item).find? (hasHit range) with
  | none =>
      rw [found] at performs
      exact ⟨_, performs, .none fun located => (stops_late rfl (sorted located)).symm.trans found⟩
  | some item =>
      have first : (due content position).find? (hasHit range) = some item := by
        rw [← @List.takeWhile_append_dropWhile _ (fun item => !stops db range ordered item) (due content position),
          List.find?_append, found]
        rfl
      rw [found] at performs
      simp only at performs
      split at performs
      · rename_i large
        exact ⟨_, performs, .large item first large⟩
      · rename_i small
        obtain ⟨db', performs, moved, delivers'⟩ := performs
        exact ⟨_, performs, .batch item db' first (by omega) moved delivers'⟩

theorem range_refused (serving : Serving store db identity content m) (safe : Safe P store) {error : Error}
    (refused : rangeRefusal range scratchSize = some error) :
    Performs P (batchesNextRange db range capacity scratchSize) db store (.error error, db) store := by
  unfold rangeRefusal at refused
  unfold batchesNextRange
  rw [serving.batch_ready]
  simp only
  split at refused
  · rename_i invalid
    rw [if_pos invalid, ← Option.some.inj refused]
    exact calls_done safe
  rename_i valid
  rw [if_neg valid]
  split at refused
  · rename_i small
    rw [if_pos small, ← Option.some.inj refused]
    exact calls_done safe
  rename_i large
  rw [if_neg large]
  split at refused
  · rename_i none
    rw [if_pos none, ← Option.some.inj refused]
    exact calls_done safe
  · cases refused

end Range

end Timelite.Ranging
