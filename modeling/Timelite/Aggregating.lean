import Timelite.Ranging

/-!
Reading calls as a whole: they observe, and give up with the handle they were
given. The aggregate folds the hits of every batch.
-/
namespace Timelite.Aggregating
open ByteFile Program Codec Backend BackendLaws Layout HeaderWalk Contents Images Crashes Calls Cursor Reader BatchApi
  Seeking Ranging
variable {α β : Type}

section Observing
variable {P : Bytes → Bytes → Prop} {store : Store} {db : Batches}

-- A reading call that met a failure.
def Stopped (db : Batches) (result : Except Error α × Batches) : Prop := ∃ code, result = (.error (.errno code), db)

theorem observes_attempt {step : Io α} {next : α → Op β} (reads : Reads step)
    (rest : ∀ value, Observes device (Stopped db) (next value)) :
    Observes device (Stopped db) (attempt db step next) := by
  refine observes_bind reads.observes ?_ fun result => ?_
  · rintro result ⟨code, rfl⟩
    exact ⟨_, ⟨code, rfl⟩, rfl⟩
  · cases result with
    | ok value => exact rest value
    | error error => trivial

theorem performs_observes {program : Op α} {value : Except Error α × Batches} {after : Store}
    (observes : Observes device (Stopped db) program) (safe : Safe P store)
    (ran : Prog.run device program store = (value, after)) : Performs P program db store value store := by
  have triple := observes.does_of_run safe ran
  refine ⟨triple.run_eq, fun outcome last execution => ?_⟩
  have still : Does device (fun state => state = store) (Stopped db) program store value store :=
    observes.does_of_run rfl ran
  obtain ⟨rfl, results⟩ := still.sound execution
  refine ⟨safe, fun result found => ?_⟩
  rcases results result found with ⟨same, _⟩ | ⟨code, stopped⟩
  · exact .inl ⟨same, rfl⟩
  · exact .inr (.inl ⟨code, stopped, rfl⟩)

theorem observes_next (db : Batches) (capacity scratchSize : Nat) :
    Observes device (Stopped db) (batchesNext db capacity scratchSize) := by
  unfold batchesNext
  split
  · trivial
  · refine observes_attempt (reads_readCursor db) fun delivery => ?_
    split <;> trivial

theorem observes_next_range (db : Batches) (range : Range) (capacity scratchSize : Nat) :
    Observes device (Stopped db) (batchesNextRange db range capacity scratchSize) := by
  unfold batchesNextRange
  split
  · trivial
  · split
    · trivial
    split
    · trivial
    split
    · trivial
    exact observes_attempt (reads_orderedSequence db) fun ordered =>
      observes_attempt (reads_nextMatch _ _ _ _ _ _) fun found => trivial

theorem observes_seek (db : Batches) (from_us scratchSize : Nat) :
    Observes device (Stopped db) (batchesSeek db from_us scratchSize) := by
  unfold batchesSeek
  split
  · trivial
  · refine observes_attempt (reads_seekPrefix _ _ _ _ _) fun found => ?_
    obtain ⟨cursor, found, offset⟩ := found
    cases found with
    | true => trivial
    | false =>
        refine observes_attempt (reads_seekSuffix _ _ _) fun found => ?_
        obtain ⟨cursor, found⟩ := found
        cases found <;> trivial

theorem observes_aggregate_loop (db : Batches) (range : Range) (scratchSize fuel : Nat) (cursor : Batches)
    (aggregate : Aggregate) :
    Observes device (Stopped db) (aggregateLoop db range scratchSize fuel cursor aggregate) := by
  induction fuel generalizing cursor aggregate with
  | zero => trivial
  | succ fuel ih =>
      refine observes_bind (observes_next_range cursor range maxRecords scratchSize) ?_ fun result => ?_
      · rintro result ⟨code, rfl⟩
        exact ⟨_, ⟨code, rfl⟩, rfl⟩
      · obtain ⟨result | found, cursor⟩ := result
        · cases result <;> trivial
        · exact ih _ _

theorem observes_aggregate (db : Batches) (range : Range) (scratchSize : Nat) :
    Observes device (Stopped db) (batchesAggregateRange db range scratchSize) := by
  unfold batchesAggregateRange
  split
  · trivial
  · split
    · trivial
    split
    · trivial
    exact observes_aggregate_loop _ _ _ _ _ _

theorem every_aggregate_loop (db : Batches) (range : Range) (scratchSize fuel : Nat) (cursor : Batches)
    (aggregate : Aggregate) :
    (aggregateLoop db range scratchSize fuel cursor aggregate).Every fun result => result.2 = db := by
  induction fuel generalizing cursor aggregate with
  | zero => exact rfl
  | succ fuel ih =>
      refine every_bind (every_true _) fun result _ => ?_
      obtain ⟨result | found, cursor⟩ := result
      · cases result <;> exact rfl
      · exact ih _ _

-- The caller's handle is returned as it was.
theorem every_aggregate (db : Batches) (range : Range) (scratchSize : Nat) :
    (batchesAggregateRange db range scratchSize).Every fun result => result.2 = db := by
  unfold batchesAggregateRange
  split
  · exact rfl
  · split
    · exact rfl
    split
    · exact rfl
    exact every_aggregate_loop _ _ _ _ _ _

theorem aggregate_result (db : Batches) (range : Range) (scratchSize : Nat) (store : Store) :
    ∃ result, Prog.run device (batchesAggregateRange db range scratchSize) store = ((result, db), store) := by
  have handle := (every_aggregate db range scratchSize).exec (exec_run device _ store) _ rfl
  have state := (observes_aggregate db range scratchSize).run_state store
  exact ⟨_, Prod.ext (Prod.ext rfl handle) state⟩

end Observing

section Folding
variable {store : Store} {db cursor : Batches} {content : Content} {identity : Bytes} {m : Manifests} {range : Range}
  {position scratchSize : Nat}

theorem serving_moved (serving : Serving store db identity content m) (moved : Moved db cursor) :
    Serving store cursor identity content m := by
  rw [← moved]
  exact { serving with tracks := { serving.tracks with } }

/-- The values of the records that the range asks for. -/
def valuesIn (range : Range) (items : List (Nat × Batch)) : List Int64 :=
  items.flatMap fun item => (hits range item.2).map (·.value)

theorem values_none {items : List (Nat × Batch)} (none : items.find? (hasHit range) = none) :
    valuesIn range items = [] := by
  rw [List.find?_eq_none] at none
  rw [valuesIn, List.flatMap_eq_nil_iff]
  intro item member
  have empty := none item member
  simp only [hasHit, Bool.not_eq_true', Bool.not_eq_false, List.isEmpty_iff] at empty
  rw [empty]
  rfl

theorem values_split {passed later : List (Nat × Batch)} {item : Nat × Batch}
    (none : passed.find? (hasHit range) = none) :
    valuesIn range (passed ++ item :: later) = (hits range item.2).map (·.value) ++ valuesIn range later := by
  have front := values_none none
  unfold valuesIn at *
  rw [List.flatMap_append, front, List.nil_append, List.flatMap_cons]

theorem find_split {items : List (Nat × Batch)} {item : Nat × Batch} {p : Nat × Batch → Bool}
    (found : items.find? p = some item) :
    ∃ passed later, items = passed ++ item :: later ∧ passed.find? p = none := by
  obtain ⟨_, passed, later, split, none⟩ := List.find?_eq_some_iff_append.mp found
  refine ⟨passed, later, split, ?_⟩
  rw [List.find?_eq_none]
  intro other member
  simpa using none other member

theorem hits_few (range : Range) (batch : Batch) : (hits range batch).length ≤ maxRecords :=
  le_trans (List.length_filter_le _ _) batch.few

theorem due_after {passed later : List (Nat × Batch)} {item : Nat × Batch}
    (split : due content position = passed ++ item :: later) : due content (item.1 + 1) = later := by
  have start := due_split split
  have order := (exposed_increasing content).filter fun other => decide (item.1 ≤ other.1)
  change (due content item.1).Pairwise _ at order
  rw [start] at order
  rw [due_later (Nat.le_succ item.1), start, List.filter_cons, if_neg (by simp), List.filter_eq_self]
  intro other inside
  exact decide_eq_true (List.rel_of_pairwise_cons order inside)

/-- Undisturbed, the loop folds the values of everything ahead. -/
theorem aggregate_loop {fuel : Nat} {aggregate : Aggregate} (serving : Serving store cursor identity content m)
    (truthful : ∀ segment ∈ content.segments, segment.Truthful) (located : Located content)
    (delivers : Delivers cursor content position) (accepted : rangeRefusal range scratchSize = none)
    (enough : (due content position).length < fuel) :
    Prog.run device (aggregateLoop db range scratchSize fuel cursor aggregate) store =
      ((.ok ((valuesIn range (due content position)).foldl Aggregate.note aggregate), db), store) := by
  induction fuel generalizing cursor position aggregate with
  | zero => exact absurd enough (Nat.not_lt_zero _)
  | succ fuel ih =>
      have safe : Safe (fun _ _ => True) store := safe_synced serving.synced trivial
      obtain ⟨result, performs, shape⟩ := @range_performs (fun _ _ => True) store cursor content identity m range
        position maxRecords scratchSize serving truthful safe delivers accepted
      refine (run_bind device (batchesNextRange cursor range maxRecords scratchSize) _ store).trans ?_
      rw [performs.1]
      cases shape with
      | batch item cursor' found fits moved delivers' =>
          obtain ⟨passed, later, due', none⟩ := find_split found
          have short := congrArg List.length due'
          have behind := due_after due'
          rw [List.length_append, List.length_cons] at short
          have rest := @ih cursor' (item.1 + 1) (((hits range item.2).map (·.value)).foldl Aggregate.note aggregate)
            (serving_moved serving moved) delivers' (by rw [behind]; omega)
          rw [behind] at rest
          rw [due', values_split none, List.foldl_append]
          exact rest
      | large item found small =>
          have few := hits_few range item.2
          omega
      | none late =>
          rw [values_none (late located)]
          rfl

/-- The aggregate is a fold over the hits of all batches, wherever the cursor stands. -/
theorem aggregate_run (serving : Serving store db identity content m)
    (truthful : ∀ segment ∈ content.segments, segment.Truthful) (located : Located content)
    (large : batchScratch ≤ scratchSize) (valid : range.from_us ≤ range.until_us)
    (filtered : range.filterSeries = 0 ∨ range.filterSeries = 1) :
    Prog.run device (batchesAggregateRange db range scratchSize) store =
      ((.ok ((valuesIn range content.exposed).foldl Aggregate.note ⟨0, 0, 0⟩), db), store) := by
  have known : ¬ (range.from_us > range.until_us ∨ (range.filterSeries ≠ 0 ∧ range.filterSeries ≠ 1)) := by omega
  unfold batchesAggregateRange
  rw [serving.batch_ready]
  simp only
  rw [if_neg known, if_neg (by omega)]
  have reset : Serving store (resetCursor db) identity content m := serving_moved serving rfl
  have fuel := cursor_fuel serving.tracks 1
  by_cases empty : range.from_us = range.until_us
  · have refused : rangeRefusal range scratchSize = some .endOfData := by
      rw [rangeRefusal, if_neg known, if_neg (by omega), if_pos empty]
    have safe : Safe (fun _ _ => True) store := safe_synced serving.synced trivial
    have ran := (@range_refused (fun _ _ => True) store (resetCursor db) content identity m range maxRecords
      scratchSize reset safe _ refused).1
    obtain ⟨k, shape⟩ : ∃ k, cursorFuel db = k + 1 := ⟨cursorFuel db - 1, by omega⟩
    have none : ∀ item : Nat × Batch, hits range item.2 = [] := fun item => by
      rw [hits, List.filter_eq_nil_iff]
      intro record _
      simp only [inRange, decide_eq_true_eq]
      omega
    have blank : valuesIn range content.exposed = [] := by
      rw [valuesIn, List.flatMap_eq_nil_iff]
      intro item _
      rw [none item]
      rfl
    rw [shape, blank]
    refine (run_bind device (batchesNextRange (resetCursor db) range maxRecords scratchSize) _ store).trans ?_
    rw [ran]
    rfl
  · have accepted : rangeRefusal range scratchSize = none := by
      rw [rangeRefusal, if_neg known, if_neg (by omega), if_neg empty]
    have loop := @aggregate_loop store db (resetCursor db) content identity m range 1 scratchSize (cursorFuel db)
      ⟨0, 0, 0⟩ reset truthful located (delivers_reset db content) accepted fuel
    rwa [due_one] at loop

/-- What an aggregation of the content answers. -/
def aggregated (content : Content) (range : Range) (scratchSize : Nat) : Except Error Aggregate :=
  if range.from_us > range.until_us ∨ range.filterSeries ≠ 0 ∧ range.filterSeries ≠ 1 then .error (.errno .einval)
  else if scratchSize < batchScratch then .error .bufferTooSmall
  else .ok ((valuesIn range content.exposed).foldl Aggregate.note ⟨0, 0, 0⟩)

theorem aggregate_answers (serving : Serving store db identity content m)
    (truthful : ∀ segment ∈ content.segments, segment.Truthful) (located : Located content) :
    Prog.run device (batchesAggregateRange db range scratchSize) store =
      ((aggregated content range scratchSize, db), store) := by
  rw [aggregated]
  by_cases invalid : range.from_us > range.until_us ∨ range.filterSeries ≠ 0 ∧ range.filterSeries ≠ 1
  · rw [if_pos invalid, batchesAggregateRange, serving.batch_ready]
    simp only
    rw [if_pos invalid]
    rfl
  by_cases small : scratchSize < batchScratch
  · rw [if_neg invalid, if_pos small, batchesAggregateRange, serving.batch_ready]
    simp only
    rw [if_neg invalid, if_pos small]
    rfl
  · rw [if_neg invalid, if_neg small]
    exact aggregate_run serving truthful located (by omega) (by omega) (by omega)

end Folding

end Timelite.Aggregating
