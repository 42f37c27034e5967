import Timelite.Atomicity

/-!
Seek: the segments before the span start are scanned frame by frame, the ordered
ones behind it are searched by their maxima, and the cursor ends at the first
batch whose last record is at or after the time.
-/
namespace Timelite.Seeking
open ByteFile Program Codec Backend BackendLaws Layout FrameLaws HeaderWalk SegmentLaws WalLaws Contents Images Crashes
  Calls Cursor Reader BatchApi Spans

section Ordered

/-- The segments from the span start on. -/
def suffix (segments : List Segment) : List Segment := segments.drop (spanStart segments - 1)

def timesIn (segments : List Segment) : List Nat := segments.flatMap Segment.times

-- The last time of an ordered segment is its maximum, the first its minimum.
theorem ordered_final {segment : Segment} (truthful : segment.Truthful) (wide : segment.wide = true)
    (ordered : segment.ordered = true) :
    finalOf segment.times = segment.maximum ∧ firstOf segment.times = segment.minimum := by
  obtain ⟨least, greatest, bounds, order⟩ := truthful wide
  have sorted : rising segment.times = true := rising_iff.mpr (order.mp ordered)
  have some := segment_times_ne segment
  have upper := (bounds _ (final_mem some)).2
  have lower := (bounds _ (first_mem some)).1
  have final := rising_le_final sorted greatest
  have first := rising_first_le sorted least
  omega

theorem ordered_wide {segment : Segment} (ordered : segment.ordered = true) : segment.wide = true := by
  simp only [Segment.ordered, Segment.wide] at *
  cases kind : segment.kind <;> simp_all

@[simp] theorem times_in_append (left right : List Segment) :
    timesIn (left ++ right) = timesIn left ++ timesIn right := List.flatMap_append

@[simp] theorem times_in_single (segment : Segment) : timesIn [segment] = segment.times := by
  simp [timesIn]

/-- The segments from the span start on are ordered ones, and their maxima do not decrease. -/
theorem suffix_climbs (segments : List Segment) {j : Nat} {late : Segment} (second : segments[j]? = some late)
    (start : spanStart segments ≤ j + 1) :
    late.ordered = true ∧ ∀ i early, spanStart segments ≤ i + 1 → i ≤ j → segments[i]? = some early →
      early.maximum ≤ late.maximum := by
  induction segments using List.reverseRecOn generalizing j late with
  | nil => cases second
  | append_singleton front segment ih =>
      have size := (List.getElem?_eq_some_iff.mp second).1
      rw [List.length_append, List.length_singleton] at size
      rw [span_start_snoc] at start ⊢
      by_cases wide : segment.wide = true
      · rw [if_pos wide] at start ⊢
        by_cases kind : segment.ordered = true
        · rw [if_neg (by simp [kind])] at start ⊢
          by_cases inside : j < front.length
          · rw [List.getElem?_append_left inside] at second
            split at start
            · omega
            · rename_i above
              rw [if_neg above]
              obtain ⟨ordered, climbs⟩ := ih second start
              refine ⟨ordered, fun i early behind before first => climbs i early behind before ?_⟩
              rwa [List.getElem?_append_left (by omega)] at first
          · obtain rfl : j = front.length := by omega
            rw [List.getElem?_concat_length, Option.some.injEq] at second
            subst second
            refine ⟨kind, fun i early behind before first => ?_⟩
            rcases Nat.eq_or_lt_of_le before with rfl | less
            · rw [List.getElem?_concat_length, Option.some.injEq] at first
              rw [first]
            · rw [List.getElem?_append_left less] at first
              split at behind
              · omega
              · rename_i above
                obtain ⟨k, length⟩ : ∃ k, front.length = k + 1 := ⟨front.length - 1, by omega⟩
                obtain ⟨final, last⟩ : ∃ final, front[k]? = some final :=
                  ⟨_, List.getElem?_eq_getElem (show k < front.length by omega)⟩
                obtain ⟨ordered, climbs⟩ := ih last (by omega)
                have most := climbs i early behind (by omega) first
                have prior : priorMaximum front = final.maximum := by
                  rw [priorMaximum, List.getLast?_eq_getElem?, length, Nat.add_sub_cancel, last]
                  simp [ordered_wide ordered]
                have spans := segment.spans
                omega
        · rw [if_pos (by simpa using kind)] at start
          omega
      · rw [if_neg wide] at start
        omega

-- The records of the suffix end where its last segment ends.
theorem suffix_final {segments : List Segment} (truthful : ∀ segment ∈ segments, segment.Truthful)
    (ordered : ∀ segment ∈ suffix segments, segment.ordered = true) (some : suffix segments ≠ []) :
    finalOf (timesIn (suffix segments)) = priorMaximum segments := by
  obtain ⟨init, final, split⟩ := (List.eq_nil_or_concat' _).resolve_left some
  have member : final ∈ suffix segments := by simp [split]
  have kind := ordered final member
  have last : segments.getLast? = .some final := by
    have tail : (suffix segments).getLast? = .some final := by simp [split]
    rw [suffix, List.getLast?_drop] at tail
    split at tail
    · cases tail
    · exact tail
  have wide := ordered_wide kind
  rw [priorMaximum, last, split, times_in_append, times_in_single, final_append, if_neg (segment_times_ne final),
    (ordered_final (truthful final (List.mem_of_mem_drop member)) wide kind).1]
  simp [wide]

/-- Behind the span start the records are in time order. -/
theorem suffix_sorted {segments : List Segment} (truthful : ∀ segment ∈ segments, segment.Truthful) :
    (∀ segment ∈ suffix segments, segment.ordered = true) ∧ rising (timesIn (suffix segments)) = true := by
  induction segments using List.reverseRecOn with
  | nil => exact ⟨fun segment none => by simp [suffix] at none, by simp [suffix, timesIn]⟩
  | append_singleton front segment ih =>
      obtain ⟨ordered, sorted⟩ := ih fun other member => truthful other (List.mem_append_left _ member)
      have bounds := span_start_bounds front
      have last := truthful segment (by simp)
      unfold suffix
      rw [span_start_snoc]
      split
      · rename_i wide
        split
        · simp [timesIn]
        · rename_i kind
          have kind' : segment.ordered = true := by simpa using kind
          have alone : rising segment.times = true := rising_iff.mpr ((last wide).2.2.2.mp kind')
          split
          · simp [timesIn, kind', alone]
          · rename_i above
            rw [List.drop_append_of_le_length (by omega)]
            refine ⟨fun other member => ?_, ?_⟩
            · rcases List.mem_append.mp member with old | new
              · exact ordered other old
              · rw [List.mem_singleton.mp new]
                exact kind'
            · have joined : timesIn (suffix front ++ [segment]) = timesIn (suffix front) ++ segment.times := by simp
              rw [suffix] at joined
              rw [joined, rising_append, ← suffix, sorted, alone]
              by_cases none : suffix front = []
              · simp [none, timesIn]
              · have final := suffix_final (fun other member => truthful other (List.mem_append_left _ member))
                  ordered none
                rw [final, (ordered_final last wide kind').2]
                simp only [Bool.true_and, Bool.or_eq_true, decide_eq_true_eq]
                exact .inr (by omega)
      · simp [timesIn]

end Ordered

section Scanning
variable {store : Store} {db : Batches} {content : Content} {wanted : Nat} {rest : List (Nat × Batch)} {time limit : Nat}

/-- The last record of the batch is at or after the time. -/
def reaches (time : Nat) (item : Nat × Batch) : Bool := decide (time ≤ Batch.finalTime item.2)

theorem reads_seekFrames (time limit fuel : Nat) (db : Batches) : Reads (seekFrames time limit fuel db) := by
  induction fuel generalizing db with
  | zero => exact reads_pure _
  | succ fuel ih =>
      refine reads_ite (reads_examine (reads_readCursor _) (fun _ => rfl) fun result => ?_) (reads_pure _)
      cases result with
      | ok delivery => exact reads_ite (reads_pure _) (ih _)
      | error error => cases error <;> exact reads_done _

/-- The batches from the first one on that reaches the time, looked for as long as the
number that the cursor expects is within the limit. -/
def scan (time limit : Nat) : (expected : Nat) → List (Nat × Batch) → Option (List (Nat × Batch))
  | _, [] => none
  | expected, item :: later =>
      if expected ≤ limit then
        if reaches time item then some (item :: later) else scan time limit (next64 item.1) later
      else none

theorem scan_frames {R : Batches → List (Nat × Batch) → Prop} {fuel : Nat} (feeds : Feeds store R) (here : R db rest)
    (enough : rest.length < fuel) :
    match scan time limit db.readSequence rest with
    | some found => ∃ db', on (seekFrames time limit fuel db) store = (.ok (db', true), store) ∧ Moved db db' ∧ R db' found
    | none => ∃ db', on (seekFrames time limit fuel db) store = (.ok (db', false), store) ∧ Moved db db' := by
  induction rest generalizing db fuel with
  | nil =>
      obtain ⟨fuel, rfl⟩ : ∃ k, fuel = k + 1 := ⟨fuel - 1, by simp at enough; omega⟩
      refine ⟨db, ?_, moved_refl db⟩
      have read : on (readCursor db) store = (.error .endOfData, store) := feeds db [] here
      rw [seekFrames, on_ite, on_examine, read]
      split <;> rfl
  | cons item later ih =>
      obtain ⟨fuel, rfl⟩ : ∃ k, fuel = k + 1 := ⟨fuel - 1, by simp at enough; omega⟩
      rw [List.length_cons] at enough
      rw [scan]
      by_cases below : db.readSequence ≤ limit
      · obtain ⟨db', ran, moved, expects, next⟩ := feeds db (item :: later) here
        have start : on (seekFrames time limit (fuel + 1) db) store =
            if Batch.finalTime item.2 ≥ time then (.ok (db, true), store)
            else on (seekFrames time limit fuel (copyCursor db db')) store := by
          rw [seekFrames, if_pos below, on_examine, ran]
          refine (on_ite _ _ _ _).trans ?_
          rw [final_frame_time]
          rfl
        rw [if_pos below]
        by_cases reached : time ≤ Batch.finalTime item.2
        · rw [if_pos (by exact decide_eq_true reached)]
          exact ⟨db, by rw [start, if_pos reached], moved_refl db, here⟩
        · rw [if_neg (by simpa [reaches] using reached), start, if_neg reached, moved, ← expects]
          have step := @ih db' fuel next (by omega)
          split at step
          · obtain ⟨db'', ran', moved', there⟩ := step
            exact ⟨db'', ran', moved_trans moved moved', there⟩
          · obtain ⟨db'', ran', moved'⟩ := step
            exact ⟨db'', ran', moved_trans moved moved'⟩
      · rw [if_neg below]
        exact ⟨db, by rw [seekFrames, if_neg below]; rfl, moved_refl db⟩

-- A batch ahead of the cursor has a number that a sequence field can hold.
theorem ahead_bounds (ahead : Ahead db content wanted rest) {item : Nat × Batch} (member : item ∈ rest) :
    wanted ≤ item.1 ∧ item.1 < 18446744073709551616 := by
  have numbered := content.numbered
  rw [ahead.due] at member
  obtain ⟨exposed, late⟩ := List.mem_filter.mp member
  have bound := (exposed_bounds exposed).2
  simp only [Content.high, uint64Max] at bound numbered
  exact ⟨of_decide_eq_true late, by omega⟩

-- Where the numbers increase, the scan looks at the batches up to the limit, `near`, and stops behind them.
theorem scan_near {near far : List (Nat × Batch)} {expected : Nat} (increasing : (near ++ far).Pairwise fun a b => a.1 < b.1)
    (small : ∀ item ∈ near ++ far, item.1 < 18446744073709551616) (inside : ∀ item ∈ near, item.1 ≤ limit)
    (first : ∀ item ∈ near ++ far, expected ≤ item.1)
    (edge : far = [] ∨ (near = [] → limit < expected) ∧ ∀ item, near.getLast? = some item → item.1 = limit) :
    match near.find? (reaches time) with
    | some item => ∃ later, scan time limit expected (near ++ far) = some (item :: later) ∧
        (near ++ far).dropWhile (fun item => !reaches time item) = item :: later
    | none => scan time limit expected (near ++ far) = none := by
  induction near generalizing expected with
  | nil =>
      rw [List.nil_append]
      rcases edge with rfl | ⟨past, _⟩
      · rfl
      · cases far with
        | nil => rfl
        | cons item later => exact if_neg (Nat.not_le.mpr (past rfl))
  | cons item later ih =>
      rw [List.cons_append, List.pairwise_cons] at increasing
      have below := inside item List.mem_cons_self
      have bound := small item List.mem_cons_self
      have low := first item List.mem_cons_self
      rw [List.cons_append, scan, if_pos (by omega)]
      by_cases reached : reaches time item = true
      · rw [List.find?_cons_of_pos reached, if_pos reached, List.dropWhile_cons_of_neg (by simp [reached])]
        exact ⟨later ++ far, rfl, rfl⟩
      · have edge' : far = [] ∨ (later = [] → limit < next64 item.1) ∧
            ∀ item, later.getLast? = some item → item.1 = limit := by
          rcases edge with none | ⟨_, last⟩
          · exact .inl none
          · cases far with
            | nil => exact .inl rfl
            | cons other far =>
                refine .inr ⟨fun none => ?_, fun item found => last item ?_⟩
                · have same := last item (by rw [none]; rfl)
                  have above := increasing.1 other (by simp)
                  have bound' := small other (by simp)
                  simp only [next64]
                  omega
                · rw [List.getLast?_cons, found]
                  rfl
        rw [List.find?_cons_of_neg reached, if_neg reached, List.dropWhile_cons_of_pos (by simpa using reached)]
        refine ih increasing.2 (fun other member => small other (List.mem_cons_of_mem _ member))
          (fun other member => inside other (List.mem_cons_of_mem _ member)) (fun other member => ?_) edge'
        have above := increasing.1 other member
        simp only [next64]
        omega

/-- The scan from a cursor that waits for a batch of the content. -/
theorem seek_frames {near far : List (Nat × Batch)} {fuel : Nat} (reading : Reading store db content)
    (ahead : Ahead db content wanted (near ++ far)) (inside : ∀ item ∈ near, item.1 ≤ limit)
    (edge : far = [] ∨ (near = [] → limit < wanted) ∧ ∀ item, near.getLast? = some item → item.1 = limit)
    (enough : (near ++ far).length < fuel) :
    match near.find? (reaches time) with
    | some item => ∃ db' later wanted', on (seekFrames time limit fuel db) store = (.ok (db', true), store) ∧
        Moved db db' ∧ Ahead db' content wanted' (item :: later)
    | none => ∃ db', on (seekFrames time limit fuel db) store = (.ok (db', false), store) ∧ Moved db db' := by
  have increasing : (near ++ far).Pairwise fun a b => a.1 < b.1 := by
    rw [ahead.due]
    exact (exposed_increasing content).filter _
  have bounds := fun item member => @ahead_bounds db content wanted _ ahead item member
  have low : ∀ item ∈ near ++ far, db.readSequence ≤ item.1 := fun item member => by
    rw [ahead.expects]
    exact Nat.le_trans (Nat.mod_le _ _) (bounds item member).1
  have edge' : far = [] ∨ (near = [] → limit < db.readSequence) ∧ ∀ item, near.getLast? = some item → item.1 = limit := by
    rcases edge with none | ⟨past, last⟩
    · exact .inl none
    · cases far with
      | nil => exact .inl rfl
      | cons item later =>
          refine .inr ⟨fun none => ?_, last⟩
          have bound := bounds item (by simp)
          rw [ahead.expects, Nat.mod_eq_of_lt (by omega)]
          exact past none
  have found := @scan_near time limit near far db.readSequence increasing (fun item member => (bounds item member).2) inside
    low edge'
  have ran := @scan_frames store db _ time limit _ fuel (standing_feeds store content) ⟨reading, wanted, ahead⟩ enough
  cases shape : near.find? (reaches time) with
  | none =>
      rw [shape] at found
      simp only at found
      rw [found] at ran
      exact ran
  | some item =>
      rw [shape] at found
      obtain ⟨later, found, _⟩ := found
      rw [found] at ran
      obtain ⟨db', ran, moved, _, wanted', ahead'⟩ := ran
      exact ⟨db', later, wanted', ran, moved, ahead'⟩

theorem number_last {sequence : Nat} {batches : List Batch} {item : Nat × Batch}
    (last : (number sequence batches).getLast? = some item) : item.1 + 1 = sequence + batches.length := by
  induction batches generalizing sequence with
  | nil => cases last
  | cons batch rest ih =>
      cases rest with
      | nil =>
          rw [← Option.some.inj last]
          rfl
      | cons next rest =>
          have step : item.1 + 1 = sequence + 1 + (next :: rest).length := ih last
          simp only [List.length_cons] at *
          omega

theorem reads_seekPrefix (db : Batches) (time count offset : Nat) (cursor : Batches) :
    Reads (seekPrefix db time count offset cursor) := by
  induction count generalizing offset cursor with
  | zero => exact reads_pure _
  | succ count ih =>
      refine reads_bind (reads_readSegment _ _ _) fun segment => reads_bind (reads_seekFrames _ _ _ _) fun found => ?_
      split
      exact reads_ite (reads_pure _) (ih _ _)

/-- The scan of the segments that are not known to be ordered. -/
theorem seek_unordered {done middle back : List Segment} {cursor : Batches} (reading : Reading store db content)
    (split : content.segments = done ++ middle ++ back) (moved : Moved db cursor) :
    match (middle.flatMap Segment.numbered).find? (reaches time) with
    | some item => ∃ db' later wanted' offset',
        on (seekPrefix db time middle.length (160 + extent done) cursor) store = (.ok (db', true, offset'), store) ∧
        Moved db db' ∧ Ahead db' content wanted' (item :: later)
    | none => ∃ db' offset',
        on (seekPrefix db time middle.length (160 + extent done) cursor) store = (.ok (db', false, offset'), store) ∧
        Moved db db' := by
  induction middle generalizing done cursor with
  | nil => exact ⟨cursor, 160 + extent done, rfl, moved⟩
  | cons segment rest ih =>
      have split' : content.segments = done ++ segment :: (rest ++ back) := by simp [split]
      have chained := reading.chained
      rw [split'] at chained
      have read := chained.read
      have ahead := @ahead_segment content done (rest ++ back) segment cursor
        (infoAt 160 (done ++ segment :: (rest ++ back)) done.length segment) split' rfl rfl rfl
      rw [List.flatMap_cons, List.append_assoc] at ahead
      have position : Moved db (positionSegment cursor (160 + extent done)
          (infoAt 160 (done ++ segment :: (rest ++ back)) done.length segment)) := by
        rw [← moved]
        rfl
      have short : (segment.numbered ++ ((rest ++ back).flatMap Segment.numbered ++ content.queued)).length <
          cursorFuel db := by
        rw [ahead.due]
        exact cursor_fuel reading.tracks segment.first
      have inside : ∀ item ∈ segment.numbered, item.1 ≤ segment.last := fun item member => by
        have bounds := number_bounds member
        simp only [Segment.last]
        omega
      have counted := segment.length_pos
      have edge : (segment.numbered = [] → segment.last < segment.first) ∧
          ∀ item, segment.numbered.getLast? = some item → item.1 = segment.last := by
        refine ⟨fun none => ?_, fun item last => ?_⟩
        · have size := congrArg List.length none
          rw [Segment.numbered, number_length, List.length_nil] at size
          omega
        · have final := number_last last
          simp only [Segment.last]
          omega
      have scan := @seek_frames store _ content segment.first time segment.last segment.numbered _ (cursorFuel db)
        (reading.moved position) ahead inside (.inr edge) short
      have start : ∀ {result : Batches} {found : Bool},
          on (seekFrames time segment.last (cursorFuel db) (positionSegment cursor (160 + extent done)
            (infoAt 160 (done ++ segment :: (rest ++ back)) done.length segment))) store =
              (.ok (result, found), store) →
          on (seekPrefix db time (rest.length + 1) (160 + extent done) cursor) store =
            if found then (.ok (result, true, 160 + extent done), store)
            else on (seekPrefix db time rest.length (160 + extent (done ++ [segment])) result) store := by
        intro result found ran
        rw [seekPrefix, reading.tracks.dataEnd, on_bind_ok read, info_at_last, on_bind_ok ran]
        refine (on_ite _ _ _ _).trans ?_
        congr 2
        rw [extent_append, extent_cons, extent_nil, info_at_header, info_at_body, Segment.size]
        congr 1
        omega
      rw [List.flatMap_cons, List.find?_append]
      cases near : segment.numbered.find? (reaches time) with
      | some item =>
          rw [near] at scan
          obtain ⟨db', later, wanted', ran, moved', ahead'⟩ := scan
          exact ⟨db', later, wanted', _, start ran, moved_trans position moved', ahead'⟩
      | none =>
          rw [near] at scan
          obtain ⟨db', ran, moved'⟩ := scan
          have next := @ih (done ++ [segment]) db' (by simp [split]) (moved_trans position moved')
          have stepped := start ran
          simp only [Bool.false_eq_true, if_false] at stepped
          rw [Option.none_or, List.length_cons, stepped]
          exact next

end Scanning

section Searching
variable {store : Store} {db : Batches} {content : Content} {time : Nat}

theorem reads_seekSpans (db : Batches) (time fuel low high : Nat) : Reads (seekSpans db time fuel low high) := by
  induction fuel generalizing low high with
  | zero => exact reads_pure _
  | succ fuel ih =>
      refine reads_ite (reads_bind (reads_segmentAt _ _ _ _) fun found => ?_) (reads_pure _)
      split
      exact reads_ite (ih _ _) (ih _ _)

theorem reads_seekSuffix (db : Batches) (time : Nat) (cursor : Batches) : Reads (seekSuffix db time cursor) := by
  refine reads_bind (reads_seekSpans _ _ _ _ _) fun low => reads_bind ?_ fun start =>
    reads_bind (reads_seekFrames _ _ _ _) fun found => ?_
  · refine reads_ite (reads_bind (reads_segmentAt _ _ _ _) fun found => ?_) (reads_pure _)
    split
    exact reads_pure _
  · split
    exact reads_ite (reads_pure _) (reads_pure _)

/-- What the lookup by ordinal needs of a handle. -/
structure Indexed (store : Store) (db : Batches) (segments : List Segment) : Prop where
  chained : Chained store 160 db.dataEnd segments
  generation : db.generation = segments.length
  lastSegment : db.lastSegment = linkTo 160 segments segments.length

theorem reading_indexed (reading : Reading store db content) : Indexed store db content.segments :=
  ⟨reading.tracks.dataEnd ▸ reading.chained, reading.tracks.generation, reading.tracks.lastSegment⟩

theorem Indexed.locate {segments : List Segment} (indexed : Indexed store db segments) {k : Nat} {segment : Segment}
    (found : segments[k]? = some segment) :
    on (segmentAt db.dataEnd db.generation db.lastSegment (k + 1)) store =
      (.ok (linkTo 160 segments (k + 1), infoAt 160 segments k segment), store) := by
  rw [indexed.generation, indexed.lastSegment]
  exact segment_at indexed.chained found

/-- The ordered segments before the result are all older than the time, the one at the result is not. -/
theorem seek_spans {segments : List Segment} {fuel low high : Nat} (indexed : Indexed store db segments)
    (start : spanStart segments ≤ low) (order : low ≤ high) (top : high ≤ segments.length + 1)
    (older : ∀ i segment, spanStart segments ≤ i + 1 → i + 1 < low → segments[i]? = some segment → segment.maximum < time)
    (newer : ∀ segment, segments[high - 1]? = some segment → time ≤ segment.maximum) (enough : high - low ≤ fuel) :
    ∃ found, on (seekSpans db time fuel low high) store = (.ok found, store) ∧ low ≤ found ∧ found ≤ high ∧
      (∀ i segment, spanStart segments ≤ i + 1 → i + 1 < found → segments[i]? = some segment → segment.maximum < time) ∧
      ∀ segment, segments[found - 1]? = some segment → time ≤ segment.maximum := by
  induction fuel generalizing low high with
  | zero =>
      obtain rfl : low = high := by omega
      exact ⟨low, rfl, Nat.le_refl _, order, older, newer⟩
  | succ fuel ih =>
      by_cases done : low < high
      · have first := span_start_bounds segments
        obtain ⟨k, middle⟩ : ∃ k, low + (high - low) / 2 = k + 1 := ⟨low + (high - low) / 2 - 1, by omega⟩
        obtain ⟨segment, found⟩ : ∃ segment, segments[k]? = some segment :=
          ⟨_, List.getElem?_eq_getElem (show k < segments.length by omega)⟩
        have stepped : on (seekSpans db time (fuel + 1) low high) store =
            if segment.maximum < time then on (seekSpans db time fuel (k + 2) high) store
            else on (seekSpans db time fuel low (k + 1)) store := by
          rw [seekSpans, if_pos done]
          simp only [middle]
          rw [on_bind_ok (indexed.locate found)]
          exact on_ite _ _ _ _
        by_cases below : segment.maximum < time
        · obtain ⟨result, ran, above, under, rest⟩ := @ih (k + 2) high (by omega) (by omega) top
            (fun i other behind before there => by
              have order := (suffix_climbs segments found (by omega)).2 i other behind (by omega) there
              omega) newer (by omega)
          exact ⟨result, by rw [stepped, if_pos below, ran], by omega, under, rest⟩
        · obtain ⟨result, ran, above, under, rest⟩ := @ih low (k + 1) start (by omega) (by omega)
            older (fun other there => by
              rw [Nat.add_sub_cancel, found, Option.some.injEq] at there
              rw [← there]
              omega) (by omega)
          exact ⟨result, by rw [stepped, if_neg below, ran], above, by omega, rest⟩
      · obtain rfl : low = high := by omega
        refine ⟨low, ?_, Nat.le_refl _, order, older, newer⟩
        rw [seekSpans, if_neg done]
        rfl

-- Where the scan of the ordered segments starts.
theorem seek_start {segments : List Segment} {cursor : Batches} {low : Nat} (indexed : Indexed store db segments)
    (counted : 0 < low) (top : low ≤ segments.length + 1) :
    on (seekStart db cursor low) store =
      (.ok (match segments[low - 1]? with
        | some segment => positionSegment cursor (160 + extent (segments.take (low - 1)))
            (infoAt 160 segments (low - 1) segment)
        | none => positionWal cursor 32 (next64 db.installed)), store) := by
  obtain ⟨k, rfl⟩ : ∃ k, low = k + 1 := ⟨low - 1, by omega⟩
  rw [Nat.add_sub_cancel]
  by_cases inside : k < segments.length
  · obtain ⟨segment, found⟩ : ∃ segment, segments[k]? = .some segment := ⟨_, List.getElem?_eq_getElem inside⟩
    have place : linkTo 160 segments (k + 1) = 160 + extent (segments.take k) := link_succ _ _ _
    rw [seekStart, if_pos (by rw [indexed.generation]; omega), on_bind_ok (indexed.locate found), place, found]
    rfl
  · rw [seekStart, if_neg (by rw [indexed.generation]; omega), List.getElem?_eq_none (by omega)]
    rfl

theorem start_ahead {cursor : Batches} {low : Nat} (reading : Reading store db content) (moved : Moved db cursor)
    (counted : 0 < low) (top : low ≤ content.segments.length + 1) :
    ∃ db' wanted, on (seekStart db cursor low) store = (.ok db', store) ∧ Moved db db' ∧
      Ahead db' content wanted
        ((content.segments.drop (low - 1)).flatMap Segment.numbered ++ content.queued) := by
  have ran := @seek_start store db content.segments cursor low (reading_indexed reading) counted top
  cases found : content.segments[low - 1]? with
  | some segment =>
      rw [found] at ran
      have split := nth_split found
      have ahead := @ahead_segment content (content.segments.take (low - 1)) (content.segments.drop (low - 1 + 1)) segment
        cursor (infoAt 160 content.segments (low - 1) segment) split rfl rfl rfl
      have tail : content.segments.drop (low - 1) = segment :: content.segments.drop (low - 1 + 1) := by
        obtain ⟨bound, same⟩ := List.getElem?_eq_some_iff.mp found
        rw [List.drop_eq_getElem_cons bound, same]
      refine ⟨_, segment.first, ran, ?_, by rw [tail]; exact ahead⟩
      rw [← moved]
      rfl
  | none =>
      rw [found] at ran
      refine ⟨_, content.installed + 1, ran, ?_, ?_⟩
      · rw [← moved]
        rfl
      · rw [List.drop_eq_nil_of_le (List.getElem?_eq_none_iff.mp found)]
        exact ahead_queue reading.tracks

/-- The first committed batch whose last record is at or after the time. -/
def sought (content : Content) (time : Nat) : Option (Nat × Batch) := content.exposed.find? (reaches time)

-- Batches older than the maximum of their segment are not what is sought.
theorem find_older {segments : List Segment} (truthful : ∀ segment ∈ segments, segment.Truthful)
    (wide : ∀ segment ∈ segments, segment.wide = true) (older : ∀ segment ∈ segments, segment.maximum < time) :
    (segments.flatMap Segment.numbered).find? (reaches time) = none := by
  rw [List.find?_eq_none]
  intro item member
  obtain ⟨segment, inside, numbered⟩ := List.mem_flatMap.mp member
  have last : Batch.finalTime item.2 ∈ segment.times := by
    rw [← batch_final]
    exact List.mem_flatMap.mpr ⟨item.2, number_mem numbered, final_mem (batch_times_ne item.2)⟩
  have bound := ((truthful segment inside (wide segment inside)).2.2.1 _ last).2
  have old := older segment inside
  simp only [reaches, decide_eq_true_eq]
  omega

end Searching

section Seek
variable {store : Store} {db : Batches} {content : Content} {time : Nat}

/-- Where the search of the suffix starts, nothing sought was skipped. -/
theorem sought_split {low : Nat} (truthful : ∀ segment ∈ content.segments, segment.Truthful)
    (start : spanStart content.segments ≤ low) (top : low ≤ content.segments.length + 1)
    (older : ∀ i segment, spanStart content.segments ≤ i + 1 → i + 1 < low → content.segments[i]? = some segment →
      segment.maximum < time) :
    sought content time =
      (((content.segments.take (spanStart content.segments - 1)).flatMap Segment.numbered).find? (reaches time)).or
        (((content.segments.drop (low - 1)).flatMap Segment.numbered ++ content.queued).find? (reaches time)) := by
  have bounds := span_start_bounds content.segments
  have ordered := (suffix_sorted truthful).1
  -- The segments between the span start and the start of the scan.
  have split : content.segments = content.segments.take (spanStart content.segments - 1) ++
      ((suffix content.segments).take (low - spanStart content.segments) ++ content.segments.drop (low - 1)) := by
    have rest : content.segments.drop (low - 1) =
        (suffix content.segments).drop (low - spanStart content.segments) := by
      rw [suffix, List.drop_drop]
      congr 1
      omega
    rw [rest, List.take_append_drop, suffix, List.take_append_drop]
  have none : (((suffix content.segments).take (low - spanStart content.segments)).flatMap
      Segment.numbered).find? (reaches time) = none := by
    have within : ∀ segment ∈ (suffix content.segments).take (low - spanStart content.segments),
        segment ∈ suffix content.segments := fun segment member => List.mem_of_mem_take member
    refine find_older (fun segment member => truthful segment (List.mem_of_mem_drop (within segment member)))
      (fun segment member => ordered_wide (ordered segment (within segment member))) fun segment member => ?_
    obtain ⟨k, inside, same⟩ := List.getElem_of_mem member
    have short : k < low - spanStart content.segments := by
      rw [List.length_take] at inside
      omega
    have found := List.getElem?_eq_some_iff.mpr ⟨inside, same⟩
    rw [List.getElem?_take_of_lt short, suffix, List.getElem?_drop] at found
    exact older _ segment (by omega) (by omega) found
  rw [sought, Content.exposed]
  conv_lhs => rw [split]
  rw [List.flatMap_append, List.flatMap_append, List.append_assoc, List.append_assoc, List.find?_append,
    List.find?_append, none, Option.none_or]

/-- The cursor a successful seek leaves stands before the batch it found. -/
theorem ahead_item {cursor : Batches} {wanted : Nat} {item : Nat × Batch} {later : List (Nat × Batch)}
    (ahead : Ahead cursor content wanted (item :: later)) : Delivers cursor content item.1 := by
  have due' := ahead.due
  have member : item ∈ due content wanted := by
    rw [← due']
    exact List.mem_cons_self
  obtain ⟨exposed, late⟩ := List.mem_filter.mp member
  have bound := (exposed_bounds exposed).2
  refine ⟨by omega, wanted, ?_⟩
  rw [due_item due'.symm]
  exact ahead

theorem seek_suffix {cursor : Batches} (reading : Reading store db content)
    (truthful : ∀ segment ∈ content.segments, segment.Truthful) (moved : Moved db cursor)
    (none : ((content.segments.take (spanStart content.segments - 1)).flatMap Segment.numbered).find?
      (reaches time) = none) :
    match sought content time with
    | some item => ∃ db', on (seekSuffix db time cursor) store = (.ok (db', true), store) ∧ Moved db db' ∧
        Delivers db' content item.1
    | none => ∃ db', on (seekSuffix db time cursor) store = (.ok (db', false), store) ∧ Moved db db' ∧
        Delivers db' content (content.high + 1) := by
  have bounds := span_start_bounds content.segments
  have tracks := reading.tracks
  obtain ⟨low, search, above, below, older, _⟩ := @seek_spans store db time content.segments (content.segments.length + 1)
    (spanStart content.segments) (content.segments.length + 1) (reading_indexed reading) (Nat.le_refl _) (by omega)
    (Nat.le_refl _) (fun i segment behind before => by omega) (fun segment found => by simp at found) (by omega)
  rw [sought_split truthful above below older, none, Option.none_or]
  obtain ⟨start, wanted, located, moved', ahead⟩ := @start_ahead store db content cursor low reading moved
    (by omega) below
  have short : ((content.segments.drop (low - 1)).flatMap Segment.numbered ++ content.queued).length <
      cursorFuel db := by
    rw [ahead.due]
    exact cursor_fuel tracks wanted
  have inside : ∀ item ∈ (content.segments.drop (low - 1)).flatMap Segment.numbered ++ content.queued,
      item.1 ≤ db.sequence := fun item member => by
    rw [ahead.due] at member
    rw [tracks.sequence]
    exact (exposed_bounds (List.mem_filter.mp member).1).2
  have scan := @seek_frames store start content wanted time db.sequence _ [] (cursorFuel db)
    (reading.moved moved') (by rw [List.append_nil]; exact ahead) inside (.inl rfl) (by rw [List.append_nil]; exact short)
  have front : ∀ {result : Batches} {found : Bool},
      on (seekFrames time db.sequence (cursorFuel db) start) store = (.ok (result, found), store) →
      on (seekSuffix db time cursor) store =
        if found then (.ok (result, true), store)
        else (.ok (positionWal result db.walEnd (next64 db.sequence), false), store) := by
    intro result found ran
    rw [seekSuffix, tracks.generation, tracks.spanStart, on_bind_ok search, on_bind_ok located, on_bind_ok ran]
    exact on_ite _ _ _ _
  cases where_ : ((content.segments.drop (low - 1)).flatMap Segment.numbered ++ content.queued).find?
      (reaches time) with
  | some item =>
      rw [where_] at scan
      obtain ⟨db', later, wanted', ran, onward, ahead'⟩ := scan
      exact ⟨db', front ran, moved_trans moved' onward, ahead_item ahead'⟩
  | none =>
      rw [where_] at scan
      obtain ⟨db', ran, onward⟩ := scan
      refine ⟨positionWal db' db.walEnd (next64 db.sequence), front ran, ?_, ?_⟩
      · rw [← moved_trans moved' onward]
        rfl
      · exact (ahead_end tracks).delivers (Nat.le_refl _)

/-- Seek finds the first batch whose last record is at or after the time. -/
theorem seek_performs {P : Bytes → Bytes → Prop} {identity : Bytes} {m : Manifests} {scratchSize : Nat}
    (serving : Serving store db identity content m) (truthful : ∀ segment ∈ content.segments, segment.Truthful)
    (safe : Safe P store) (large : batchScratch ≤ scratchSize) :
    match sought content time with
    | some item => ∃ db', Performs P (batchesSeek db time scratchSize) db store (.ok (), db') store ∧
        Moved db db' ∧ Delivers db' content item.1
    | none => ∃ db', Performs P (batchesSeek db time scratchSize) db store (.error .endOfData, db') store ∧
        Moved db db' ∧ Delivers db' content (content.high + 1) := by
  have reading := serving_reading serving
  have tracks := serving.tracks
  have bounds := span_start_bounds content.segments
  have prefixLength : (content.segments.take (spanStart content.segments - 1)).length = db.spanStart - 1 := by
    rw [List.length_take, tracks.spanStart]
    omega
  have scan := @seek_unordered store db content time [] (content.segments.take (spanStart content.segments - 1))
    (content.segments.drop (spanStart content.segments - 1)) (resetCursor db) reading
    (by rw [List.nil_append, List.take_append_drop]) rfl
  rw [prefixLength, extent_nil, Nat.add_zero] at scan
  have front : ∀ {result : Batches} {found : Bool} {offset : Nat} {value : Except Error Unit × Batches},
      on (seekPrefix db time (db.spanStart - 1) 160 (resetCursor db)) store = (.ok (result, found, offset), store) →
      (found = true → Performs P (succeed (copyCursor db result) () : Op Unit) db store value store) →
      (found = false → ∃ db' late, on (seekSuffix db time result) store = (.ok (db', late), store) ∧
        value = (if late = true then .ok () else .error .endOfData, copyCursor db db')) →
      Performs P (batchesSeek db time scratchSize) db store value store := by
    intro result found offset value ran yes no
    unfold batchesSeek
    rw [serving.read_arguments, if_neg (by omega)]
    refine calls_reads safe (reads_seekPrefix _ _ _ _ _) ran ?_
    cases found with
    | true => exact yes rfl
    | false =>
        obtain ⟨db', late, ran', rfl⟩ := no rfl
        refine calls_reads safe (reads_seekSuffix _ _ _) ran' ?_
        cases late <;> exact calls_done safe
  cases near : ((content.segments.take (spanStart content.segments - 1)).flatMap Segment.numbered).find?
      (reaches time) with
  | some item =>
      rw [near] at scan
      obtain ⟨db', later, wanted, offset, ran, moved, ahead⟩ := scan
      have found : sought content time = some item := by
        rw [@sought_split content time (spanStart content.segments) truthful (Nat.le_refl _) bounds.2
          (fun i segment behind before => by omega), near]
        rfl
      rw [found]
      refine ⟨copyCursor db db', front ran (fun _ => calls_done safe) (fun none => by cases none), rfl, ?_⟩
      rw [moved]
      exact ahead_item ahead
  | none =>
      rw [near] at scan
      obtain ⟨cursor, offset, ran, moved⟩ := scan
      have rest := @seek_suffix store db content time cursor reading truthful moved near
      cases found : sought content time with
      | some item =>
          rw [found] at rest
          obtain ⟨db', ran', moved', delivers⟩ := rest
          exact ⟨copyCursor db db', front ran (fun none => by cases none) fun _ => ⟨db', true, ran', rfl⟩, rfl,
            by rw [moved']; exact delivers⟩
      | none =>
          rw [found] at rest
          obtain ⟨db', ran', moved', delivers⟩ := rest
          exact ⟨copyCursor db db', front ran (fun none => by cases none) fun _ => ⟨db', false, ran', rfl⟩, rfl,
            by rw [moved']; exact delivers⟩

end Seek

end Timelite.Seeking
