import Timelite.Checkpointing

/-!
The cursor. `Ahead` relates its four fields to the batches that are still to be
delivered; reading takes the first of them, and append and checkpoint move the
cursor without losing or repeating one.
-/
namespace Timelite.Cursor
open ByteFile Program Codec Backend BackendLaws Layout FrameLaws HeaderWalk SegmentLaws Contents Images Crashes
  Calls
  Checkpointing Reader BatchApi

section Exposed

theorem number_append (sequence : Nat) (left right : List Batch) :
    number sequence (left ++ right) = number sequence left ++ number (sequence + left.length) right := by
  induction left generalizing sequence with
  | nil => rfl
  | cons batch rest ih =>
      rw [List.cons_append, number, number, ih, List.cons_append, List.length_cons]
      congr 3
      omega

theorem number_length (sequence : Nat) (batches : List Batch) : (number sequence batches).length = batches.length := by
  induction batches generalizing sequence with
  | nil => rfl
  | cons batch rest ih => rw [number, List.length_cons, ih, List.length_cons]

theorem number_mem {sequence : Nat} {batches : List Batch} {item : Nat × Batch}
    (member : item ∈ number sequence batches) : item.2 ∈ batches := by
  induction batches generalizing sequence with
  | nil => cases member
  | cons batch rest ih =>
      rcases List.mem_cons.mp member with same | later
      · rw [same]
        exact List.mem_cons_self
      · exact List.mem_cons_of_mem _ (ih later)

theorem number_bounds {sequence : Nat} {batches : List Batch} {item : Nat × Batch}
    (member : item ∈ number sequence batches) :
    sequence ≤ item.1 ∧ item.1 < sequence + batches.length := by
  induction batches generalizing sequence with
  | nil => cases member
  | cons batch rest ih =>
      rw [List.length_cons]
      rcases List.mem_cons.mp member with same | later
      · rw [same]
        simp only
        omega
      · have bounds := ih later
        omega

theorem number_filter_all {sequence wanted : Nat} {batches : List Batch} (late : wanted ≤ sequence) :
    (number sequence batches).filter (fun item => decide (wanted ≤ item.1)) = number sequence batches := by
  rw [List.filter_eq_self]
  intro item member
  have bounds := number_bounds member
  simp only [decide_eq_true_eq]
  omega

theorem number_filter_none {sequence wanted : Nat} {batches : List Batch}
    (early : sequence + batches.length ≤ wanted) :
    (number sequence batches).filter (fun item => decide (wanted ≤ item.1)) = [] := by
  rw [List.filter_eq_nil_iff]
  intro item member
  have bounds := number_bounds member
  simp only [decide_eq_true_eq]
  omega

theorem segments_filter_all {floor wanted : Nat} {segments : List Segment} (increasing : Increasing floor segments)
    (late : ∀ segment, segments.head? = some segment → wanted ≤ segment.first) :
    (segments.flatMap Segment.numbered).filter (fun item => decide (wanted ≤ item.1)) =
      segments.flatMap Segment.numbered := by
  induction segments generalizing floor with
  | nil => rfl
  | cons segment rest ih =>
      have first := late segment rfl
      have order := segment.first_le_last
      rw [List.flatMap_cons, List.filter_append, Segment.numbered, number_filter_all first,
        ih increasing.2 fun next found => ?_]
      cases rest with
      | nil => cases found
      | cons head rest =>
          rw [List.head?_cons, Option.some.injEq] at found
          subst found
          have above := increasing.2.1
          omega

theorem segments_filter_none {floor wanted : Nat} {segments : List Segment} (increasing : Increasing floor segments)
    (early : lastSequence segments < wanted) :
    (segments.flatMap Segment.numbered).filter (fun item => decide (wanted ≤ item.1)) = [] := by
  rw [List.filter_eq_nil_iff]
  intro item member
  obtain ⟨segment, inside, member⟩ := List.mem_flatMap.mp member
  have bounds := number_bounds member
  have last := (last_le_of_mem increasing inside).2
  have count := segment.count_eq
  have order := segment.first_le_last
  simp only [decide_eq_true_eq]
  omega

end Exposed

/-- What is still due from a sequence number on. -/
def due (content : Content) (wanted : Nat) : List (Nat × Batch) :=
  content.exposed.filter fun item => decide (wanted ≤ item.1)

/-- The cursor of `db` waits for the sequence number `wanted`, with `rest` ahead. -/
inductive Ahead (db : Batches) (content : Content) : (wanted : Nat) → (rest : List (Nat × Batch)) → Prop where
  | boundary (front back : List Segment) (wanted : Nat) (split : content.segments = front ++ back)
      (here : db.inWal = false) (cursor : db.cursor = 160 + extent front) (ends : db.segmentEnd = db.cursor)
      (expects : db.readSequence = wanted % 18446744073709551616) (past : lastSequence front < wanted)
      (before : ∀ segment, back.head? = some segment → wanted ≤ segment.first)
      (low : wanted ≤ content.installed + 1) :
      Ahead db content wanted (back.flatMap Segment.numbered ++ content.queued)
  | inside (front back : List Segment) (segment : Segment) (done todo : List Batch)
      (split : content.segments = front ++ segment :: back) (batches : segment.batches = done ++ todo)
      (more : todo ≠ []) (here : db.inWal = false)
      (cursor : db.cursor = 160 + extent front + segment.headerSize + framesSize done)
      (ends : db.segmentEnd = 160 + extent (front ++ [segment]))
      (expects : db.readSequence = segment.first + done.length) :
      Ahead db content (segment.first + done.length)
        (number (segment.first + done.length) todo ++ (back.flatMap Segment.numbered ++ content.queued))
  | wal (done todo : List Batch) (split : content.pending = done ++ todo) (here : db.inWal = true)
      (cursor : db.cursor = 32 + framesSize done)
      (expects : db.readSequence = (content.installed + 1 + done.length) % 18446744073709551616) :
      Ahead db content (content.installed + 1 + done.length) (number (content.installed + 1 + done.length) todo)

variable {store : Store} {db : Batches} {content : Content} {wanted : Nat} {rest : List (Nat × Batch)}

-- The two readings of a position agree.
theorem Ahead.due (ahead : Ahead db content wanted rest) : rest = due content wanted := by
  have increasing := content.increasing
  have covered := content.covered
  unfold Cursor.due Content.exposed
  rw [List.filter_append]
  cases ahead with
  | boundary front back wanted split here cursor ends expects past before low =>
      rw [split, increasing_append] at increasing
      rw [split, List.flatMap_append, List.filter_append, segments_filter_none increasing.1 past,
        segments_filter_all increasing.2 before, List.nil_append, Content.queued, number_filter_all low]
  | inside front back segment done todo split batches more here cursor ends expects =>
      have count := segment.count_eq
      have order := segment.first_le_last
      have some := List.length_pos_iff.mpr more
      have member : segment ∈ content.segments := by rw [split]; simp
      have last := (last_le_of_mem increasing member).2
      rw [split, increasing_append] at increasing
      obtain ⟨first, above, later⟩ := increasing
      have length := congrArg List.length batches
      rw [List.length_append] at length
      have early : lastSequence front < segment.first + done.length := by
        simp only [lastSequence]
        omega
      have late : ∀ next, back.head? = Option.some next → segment.first + done.length ≤ next.first := by
        intro next found
        cases back with
        | nil => cases found
        | cons head back =>
            rw [List.head?_cons, Option.some.injEq] at found
            subst found
            have := later.1
            omega
      rw [split, List.flatMap_append, List.filter_append, segments_filter_none first early, List.nil_append,
        List.flatMap_cons, List.filter_append, segments_filter_all later late, Content.queued,
        number_filter_all (by omega), Segment.numbered, batches, number_append, List.filter_append,
        number_filter_none (Nat.le_refl _), number_filter_all (Nat.le_refl _), List.nil_append, List.append_assoc]
  | wal done todo split here cursor expects =>
      rw [segments_filter_none increasing (by omega), List.nil_append, Content.queued, split, number_append,
        List.filter_append, number_filter_none (Nat.le_refl _), number_filter_all (Nat.le_refl _), List.nil_append]

section Reading

/-- What reading at a cursor needs of the store and the handle. -/
structure Reading (store : Store) (db : Batches) (content : Content) : Prop where
  tracks : Tracks db content
  chained : Chained store 160 content.dataEnd content.segments
  queued : Holds (store.content .wal) 32 (frames (content.installed + 1) content.pending)
  gapless : db.retention = false → Gapless 0 content.segments ∧ lastSequence content.segments = content.installed

theorem serving_reading {identity : Bytes} {m : Manifests} (serving : Serving store db identity content m) :
    Reading store db content where
  tracks := serving.tracks
  chained := serving.chained
  queued := serving.frames_held
  gapless := fun off => serving.installed.gapless (by rw [← serving.retention]; exact off)

-- Only the fields of the cursor differ.
def Moved (db db' : Batches) : Prop := copyCursor db db' = db'

theorem moved_refl (db : Batches) : Moved db db := rfl

theorem moved_tracks {db' : Batches} (moved : Moved db db') (tracks : Tracks db content) : Tracks db' content := by
  rw [← moved]
  exact { tracks with }

theorem moved_trans {db' db'' : Batches} (first : Moved db db') (second : Moved db' db'') : Moved db db'' := by
  unfold Moved at *
  rw [← first] at second
  exact second

theorem moved_retention {db' : Batches} (moved : Moved db db') : db'.retention = db.retention := by
  rw [← moved]
  rfl

theorem Reading.moved {db' : Batches} (reading : Reading store db content) (moved : Moved db db') :
    Reading store db' content :=
  ⟨moved_tracks moved reading.tracks, reading.chained, reading.queued, by
    rw [moved_retention moved]
    exact reading.gapless⟩

theorem moved_delivered (frame : Frame) (sequence cursor segmentEnd : Nat) (inWal : Bool) :
    Moved db (delivered db frame sequence cursor segmentEnd inWal).db := rfl

theorem copy_cursor_moved (db source : Batches) : Moved db (copyCursor db source) := rfl

-- The cursor behind a delivered frame of a segment.
theorem ahead_delivered {front back : List Segment} {segment : Segment} {done todo : List Batch} {batch : Batch}
    {limit : Nat} (split : content.segments = front ++ segment :: back)
    (batches : segment.batches = done ++ batch :: todo) (whole : limit = 160 + extent (front ++ [segment])) :
    Ahead (delivered db (frameOf (segment.first + done.length) batch) (segment.first + done.length)
        (160 + extent front + segment.headerSize + framesSize done) limit false).db content
      (segment.first + done.length + 1)
      (number (segment.first + done.length + 1) todo ++
        (back.flatMap Segment.numbered ++ content.queued)) := by
  have increasing := content.increasing
  have covered := content.covered
  have count := segment.count_eq
  have order := segment.first_le_last
  have bounded := segment.bounded
  have member : segment ∈ content.segments := by rw [split]; simp
  have last := (last_le_of_mem increasing member).2
  have length := congrArg List.length batches
  have sized := congrArg framesSize batches
  rw [List.length_append, List.length_cons] at length
  rw [frames_size_append, frames_size_cons] at sized
  have size : segment.size = segment.headerSize + framesSize segment.batches := rfl
  rw [extent_append, extent_cons, extent_nil] at whole
  cases todo with
  | nil =>
      rw [number, List.nil_append]
      rw [List.length_nil] at length
      rw [frames_size_nil] at sized
      rw [split, increasing_append] at increasing
      have joined : front ++ segment :: back = (front ++ [segment]) ++ back := by simp
      have place : 160 + extent front + segment.headerSize + framesSize done +
          (frameOf (segment.first + done.length) batch).bytes.length = 160 + extent (front ++ [segment]) := by
        rw [frame_of_length, extent_append, extent_cons, extent_nil]
        omega
      refine .boundary (front ++ [segment]) back _ (by rw [split, joined]) rfl place ?_ rfl ?_ ?_ (by omega)
      · rw [frame_of_length] at place
        simp only [delivered, frame_of_length]
        rw [place, whole, extent_append, extent_cons, extent_nil]
      · rw [last_sequence_snoc]
        omega
      · intro next found
        cases back with
        | nil => cases found
        | cons head back =>
            rw [List.head?_cons, Option.some.injEq] at found
            subst found
            have := increasing.2.2.1
            omega
  | cons next todo =>
      rw [List.length_cons] at length
      have grown : (done ++ [batch]).length = done.length + 1 := by simp
      have joined : segment.first + done.length + 1 = segment.first + (done ++ [batch]).length := by omega
      rw [joined]
      refine .inside front back segment (done ++ [batch]) (next :: todo) split ?_ (by simp) rfl ?_ ?_ ?_
      · rw [batches]
        simp
      · simp only [delivered, frame_of_length, frames_size_append, frames_size_cons, frames_size_nil]
        omega
      · rw [extent_append, extent_cons, extent_nil]
        exact whole
      · simp only [delivered, grown, next64]
        omega

theorem read_segment_frame (reading : Reading store db content) {front back : List Segment} {segment : Segment}
    {done todo : List Batch} {batch : Batch} {limit : Nat} (split : content.segments = front ++ segment :: back)
    (batches : segment.batches = done ++ batch :: todo) (whole : limit = 160 + extent (front ++ [segment])) :
    on (readInstalledCursor db (160 + extent front + segment.headerSize + framesSize done) limit
        (segment.first + done.length)) store =
      (.ok (delivered db (frameOf (segment.first + done.length) batch) (segment.first + done.length)
        (160 + extent front + segment.headerSize + framesSize done) limit false), store) := by
  have chained := reading.chained
  rw [split] at chained
  have held := chained.frames_held
  have bounded := segment.bounded
  have length := congrArg List.length batches
  have sized := congrArg framesSize batches
  rw [List.length_append, List.length_cons] at length
  rw [frames_size_append, frames_size_cons] at sized
  have size : segment.size = segment.headerSize + framesSize segment.batches := rfl
  rw [extent_append, extent_cons, extent_nil] at whole
  rw [batches, frames_append, holds_append, frames_length, frames_cons, holds_append] at held
  have fits : 160 + extent front + segment.headerSize + framesSize done + batch.size ≤ limit := by omega
  rw [readInstalledCursor, on_bind_ok (complete_frame held.2.1 fits (by omega))]
  rfl

/-- A read that takes the first batch ahead, or reports the end. -/
def Takes (store : Store) (db : Batches) (content : Content) (read : Io Delivery) : List (Nat × Batch) → Prop
  | [] => on read store = (.error .endOfData, store)
  | (sequence, batch) :: later =>
      ∃ db', on read store = (.ok ⟨frameOf sequence batch, sequence, db'⟩, store) ∧ Moved db db' ∧
        Ahead db' content (sequence + 1) later

theorem read_wal_frame (reading : Reading store db content) {done todo : List Batch}
    (split : content.pending = done ++ todo) :
    Takes store db content (readWalCursor db (32 + framesSize done)
      ((content.installed + 1 + done.length) % 18446744073709551616))
      (number (content.installed + 1 + done.length) todo) := by
  have tracks := reading.tracks
  have numbered := content.numbered
  have held := reading.queued
  simp only [uint64Max] at numbered
  cases todo with
  | nil =>
      rw [List.append_nil] at split
      rw [number, Takes, readWalCursor, if_pos (by rw [tracks.walEnd, Content.walEnd, split])]
      rfl
  | cons batch later =>
      have least := batch.size_ge
      have sized := congrArg framesSize split
      have length := congrArg List.length split
      rw [frames_size_append, frames_size_cons] at sized
      rw [List.length_append, List.length_cons] at length
      rw [split, frames_append, holds_append, frames_length, frames_cons, holds_append] at held
      have fits : 32 + framesSize done + batch.size ≤ db.walEnd := by
        rw [tracks.walEnd, Content.walEnd]
        omega
      rw [Nat.mod_eq_of_lt (by omega)]
      refine ⟨(delivered db (frameOf (content.installed + 1 + done.length) batch)
        (content.installed + 1 + done.length) (32 + framesSize done) db.segmentEnd true).db, ?_,
        moved_delivered _ _ _ _ _, ?_⟩
      · rw [readWalCursor, if_neg (by omega), on_bind_ok (read_frame held.2.1 fits (by omega))]
        rfl
      · have grown : content.installed + 1 + done.length + 1 = content.installed + 1 + (done ++ [batch]).length := by
          rw [List.length_append, List.length_singleton]
          omega
        rw [grown]
        refine .wal (done ++ [batch]) later (by rw [split]; simp) rfl ?_ ?_
        · simp only [delivered, frame_of_length, frames_size_append, frames_size_cons, frames_size_nil]
          omega
        · simp only [delivered, next64]
          rw [← grown]

/-- One read takes the first batch ahead, or reports the end. -/
theorem read_cursor (reading : Reading store db content) (ahead : Ahead db content wanted rest) :
    Takes store db content (readCursor db) rest := by
  have tracks := reading.tracks
  have covered := content.covered
  have numbered := content.numbered
  simp only [uint64Max] at numbered
  cases ahead with
  | boundary front back wanted split here cursor ends expects past before low =>
      unfold readCursor
      rw [here, if_neg (by simp)]
      cases back with
      | nil =>
          rw [List.append_nil] at split
          have atEnd : db.cursor = db.dataEnd := by rw [cursor, tracks.dataEnd, Content.dataEnd, split]
          rw [if_pos atEnd, tracks.installed]
          have read := read_wal_frame reading (List.nil_append content.pending).symm
          rw [List.flatMap_nil, List.nil_append, Content.queued]
          exact read
      | cons segment back =>
          have chained := reading.chained
          rw [split] at chained
          have least := segment.size_ge
          have first := before segment rfl
          have bounded := segment.bounded
          have order := segment.length_pos
          have sized := congrArg extent split
          rw [extent_append, extent_cons] at sized
          have expected : wanted % 18446744073709551616 = wanted := Nat.mod_eq_of_lt (by omega)
          obtain ⟨batch, later, batches⟩ := List.exists_cons_of_ne_nil segment.occupied
          have accepted : segment.first = db.readSequence ∨
              (db.retention = true ∧ db.readSequence ≤ segment.first) := by
            rw [expects, expected]
            cases retention : db.retention with
            | true => exact .inr ⟨rfl, first⟩
            | false =>
                have gapless := (reading.gapless retention).1
                rw [split] at gapless
                have chain : Sequenced false 0 (front ++ segment :: back) :=
                  ⟨by rw [← split]; exact content.increasing, fun _ => gapless⟩
                rw [sequenced_append, sequenced_cons] at chain
                have next := chain.2.2.1 rfl
                simp only [lastSequence] at past
                exact .inl (by omega)
          have whole : db.cursor + segment.headerSize + segment.body = 160 + extent (front ++ [segment]) := by
            rw [cursor, extent_append, extent_cons, extent_nil, Segment.size]
            omega
          have read := chained.read
          rw [← cursor, ← tracks.dataEnd] at read
          have start : 160 + extent front + segment.headerSize + framesSize [] = db.cursor + segment.headerSize := by
            rw [cursor, frames_size_nil, Nat.add_zero]
          have framed := read_segment_frame reading split (batches.trans (List.nil_append _).symm) whole
          have next := @ahead_delivered db content front back segment [] later batch _ split
            (batches.trans (List.nil_append _).symm) whole
          rw [List.length_nil, Nat.add_zero, start] at framed next
          rw [if_neg (by rw [cursor, tracks.dataEnd, Content.dataEnd]; omega), if_pos ends.symm,
            List.flatMap_cons, Segment.numbered, batches, number, List.cons_append, List.cons_append, List.append_assoc]
          refine ⟨_, ?_, moved_delivered _ _ _ _ _, next⟩
          rw [on_bind_ok read, on_require_bind, info_at_first, info_at_header, info_at_body, if_pos accepted]
          exact framed
  | inside front back segment done todo split batches more here cursor ends expects =>
      obtain ⟨batch, later, shape⟩ := List.exists_cons_of_ne_nil more
      subst shape
      have least := batch.size_ge
      have sized := congrArg extent split
      have bodied := congrArg framesSize batches
      have size : segment.size = segment.headerSize + framesSize segment.batches := rfl
      rw [extent_append, extent_cons] at sized
      rw [frames_size_append, frames_size_cons] at bodied
      rw [extent_append, extent_cons, extent_nil] at ends
      have framed := @read_segment_frame store db content reading front back segment done later batch db.segmentEnd
        split batches (by rw [ends, extent_append, extent_cons, extent_nil])
      have next := @ahead_delivered db content front back segment done later batch db.segmentEnd split batches
        (by rw [ends, extent_append, extent_cons, extent_nil])
      unfold readCursor
      rw [here, if_neg (by simp), if_neg (by rw [cursor, tracks.dataEnd, Content.dataEnd]; omega),
        if_neg (by rw [cursor, ends]; omega), cursor, expects,
        number, List.cons_append]
      exact ⟨_, framed, moved_delivered _ _ _ _ _, next⟩
  | wal done todo split here cursor expects =>
      have read := read_wal_frame reading split
      unfold readCursor
      rw [here, if_pos rfl, cursor, expects]
      exact read

end Reading

section Moving

/-- The cursor delivers next what is due from `position` on. -/
def Delivers (db : Batches) (content : Content) (position : Nat) : Prop :=
  position ≤ content.high + 1 ∧ ∃ wanted, Ahead db content wanted (due content position)

theorem exposed_bounds {item : Nat × Batch} (member : item ∈ content.exposed) :
    0 < item.1 ∧ item.1 ≤ content.high := by
  have covered := content.covered
  simp only [Content.high]
  rcases List.mem_append.mp member with installed | queued
  · obtain ⟨segment, inside, member⟩ := List.mem_flatMap.mp installed
    have bounds := number_bounds member
    have last := last_le_of_mem content.increasing inside
    have count := segment.count_eq
    have order := segment.first_le_last
    omega
  · have bounds := number_bounds queued
    omega

theorem number_increasing (sequence : Nat) (batches : List Batch) :
    (number sequence batches).Pairwise fun a b => a.1 < b.1 := by
  induction batches generalizing sequence with
  | nil => exact .nil
  | cons batch rest ih =>
      refine .cons (fun item member => ?_) (ih _)
      have bounds := number_bounds member
      simp only
      omega

theorem segments_increasing {floor : Nat} {segments : List Segment} (increasing : Increasing floor segments) :
    (segments.flatMap Segment.numbered).Pairwise fun a b => a.1 < b.1 := by
  induction segments generalizing floor with
  | nil => exact .nil
  | cons segment rest ih =>
      rw [List.flatMap_cons]
      refine List.pairwise_append.mpr ⟨number_increasing _ _, ih increasing.2, fun a first b second => ?_⟩
      obtain ⟨other, inside, numbered⟩ := List.mem_flatMap.mp second
      have above := (last_le_of_mem increasing.2 inside).1
      have left := number_bounds first
      have right := number_bounds numbered
      have counted := segment.length_pos
      simp only [Segment.last] at above
      omega

/-- The sequence numbers a reader sees increase. -/
theorem exposed_increasing (content : Content) : content.exposed.Pairwise fun a b => a.1 < b.1 := by
  refine List.pairwise_append.mpr ⟨segments_increasing content.increasing, number_increasing _ _,
    fun a first b second => ?_⟩
  obtain ⟨segment, inside, numbered⟩ := List.mem_flatMap.mp first
  have below := (last_le_of_mem content.increasing inside).2
  have covered := content.covered
  have left := number_bounds numbered
  have right := number_bounds second
  simp only [Segment.last] at below
  omega

theorem due_later {content : Content} {wanted position : Nat} (order : wanted ≤ position) :
    due content position = (due content wanted).filter fun item => decide (position ≤ item.1) := by
  rw [due, due, List.filter_filter]
  refine List.filter_congr fun item _ => ?_
  rw [← Bool.decide_and]
  exact decide_eq_decide.mpr ⟨fun above => ⟨above, by omega⟩, fun both => both.1⟩

-- What is due from a batch on starts with it.
theorem due_split {wanted : Nat} {passed later : List (Nat × Batch)} {item : Nat × Batch}
    (split : due content wanted = passed ++ item :: later) : due content item.1 = item :: later := by
  have member : item ∈ due content wanted := by simp [split]
  have late := of_decide_eq_true (List.mem_filter.mp member).2
  have order := (exposed_increasing content).filter fun other => decide (wanted ≤ other.1)
  change (due content wanted).Pairwise _ at order
  rw [split, List.pairwise_append] at order
  have before : passed.filter (fun other => decide (item.1 ≤ other.1)) = [] := by
    rw [List.filter_eq_nil_iff]
    intro other inside
    have below := order.2.2 other inside item List.mem_cons_self
    simp only [decide_eq_true_eq]
    omega
  have after : (item :: later).filter (fun other => decide (item.1 ≤ other.1)) = item :: later := by
    rw [List.filter_eq_self]
    intro other inside
    rcases List.mem_cons.mp inside with same | behind
    · rw [same]
      exact decide_eq_true (Nat.le_refl _)
    · exact decide_eq_true (Nat.le_of_lt (List.rel_of_pairwise_cons order.2.1 behind))
  rw [due_later late, split, List.filter_append, before, after, List.nil_append]

theorem due_item {wanted : Nat} {item : Nat × Batch} {later : List (Nat × Batch)}
    (first : due content wanted = item :: later) : due content item.1 = item :: later :=
  @due_split content wanted [] later item first

theorem due_next {wanted : Nat} {item : Nat × Batch} {later : List (Nat × Batch)}
    (first : due content wanted = item :: later) : due content (item.1 + 1) = later := by
  have order := (exposed_increasing content).filter fun other => decide (item.1 ≤ other.1)
  change (due content item.1).Pairwise _ at order
  rw [due_item first, List.pairwise_cons] at order
  rw [due_later (Nat.le_succ item.1), due_item first]
  have passed : decide (item.1 + 1 ≤ item.1) = false := by simp
  rw [List.filter_cons_of_neg (by simp [passed]), List.filter_eq_self]
  intro other inside
  exact decide_eq_true (order.1 other inside)

theorem due_one (content : Content) : due content 1 = content.exposed := by
  unfold due
  rw [List.filter_eq_self]
  intro item member
  have bounds := exposed_bounds member
  simp only [decide_eq_true_eq]
  omega

theorem due_end {position : Nat} (late : content.high < position) : due content position = [] := by
  unfold due
  rw [List.filter_eq_nil_iff]
  intro item member
  have bounds := exposed_bounds member
  simp only [decide_eq_true_eq]
  omega

theorem Ahead.delivers (ahead : Ahead db content wanted rest) (low : wanted ≤ content.high + 1) :
    Delivers db content wanted := ⟨low, wanted, ahead.due ▸ ahead⟩

theorem ahead_reset (db : Batches) (content : Content) : Ahead (resetCursor db) content 1 content.exposed := by
  refine .boundary [] content.segments 1 rfl rfl rfl rfl rfl Nat.zero_lt_one (fun segment _ => segment.counted) ?_
  omega

theorem delivers_reset (db : Batches) (content : Content) : Delivers (resetCursor db) content 1 :=
  (ahead_reset db content).delivers (by omega)

-- Behind the last committed batch.
theorem ahead_end (tracks : Tracks db content) {cursor : Batches} :
    Ahead (positionWal cursor db.walEnd (next64 db.sequence)) content (content.high + 1) [] := by
  have place : content.high + 1 = content.installed + 1 + content.pending.length := by
    simp only [Content.high]
    omega
  rw [place]
  refine .wal content.pending [] (List.append_nil _).symm rfl ?_ ?_
  · simp only [positionWal, tracks.walEnd, Content.walEnd]
  · simp only [positionWal, tracks.sequence, next64, place]

theorem ahead_queue (tracks : Tracks db content) {cursor : Batches} :
    Ahead (positionWal cursor 32 (next64 db.installed)) content (content.installed + 1) content.queued := by
  refine .wal [] content.pending rfl rfl rfl ?_
  simp only [positionWal, tracks.installed, next64, List.length_nil, Nat.add_zero]

theorem ahead_segment {front back : List Segment} {segment : Segment} {cursor : Batches} {info : SegmentInfo}
    (split : content.segments = front ++ segment :: back) (header : info.headerSize = segment.headerSize)
    (body : info.body = segment.body) (first : info.first = segment.first) :
    Ahead (positionSegment cursor (160 + extent front) info) content segment.first
      ((segment :: back).flatMap Segment.numbered ++ content.queued) := by
  rw [List.flatMap_cons, List.append_assoc]
  refine .inside front back segment [] segment.batches split rfl segment.occupied rfl ?_ ?_ ?_
  · simp only [positionSegment, header, frames_size_nil, Nat.add_zero]
  · simp only [positionSegment, header, body, extent_append, extent_cons, extent_nil, Segment.size]
    omega
  · simp only [positionSegment, first, List.length_nil, Nat.add_zero]

-- Only the fields of the cursor matter.
theorem Ahead.fields {db' : Batches} (ahead : Ahead db content wanted rest) (inWal : db'.inWal = db.inWal)
    (cursor : db'.cursor = db.cursor) (segmentEnd : db'.segmentEnd = db.segmentEnd)
    (readSequence : db'.readSequence = db.readSequence) : Ahead db' content wanted rest := by
  cases ahead with
  | boundary front back wanted split here place ends expects past before low =>
      exact .boundary front back wanted split (inWal.trans here) (cursor.trans place)
        (by rw [segmentEnd, cursor, ends]) (readSequence.trans expects) past before low
  | inside front back segment done todo split batches more here place ends expects =>
      exact .inside front back segment done todo split batches more (inWal.trans here) (cursor.trans place)
        (segmentEnd.trans ends) (readSequence.trans expects)
  | wal done todo split here place expects =>
      exact .wal done todo split (inWal.trans here) (cursor.trans place) (readSequence.trans expects)

theorem Delivers.fields {db' : Batches} {position : Nat} (delivers : Delivers db content position)
    (inWal : db'.inWal = db.inWal) (cursor : db'.cursor = db.cursor) (segmentEnd : db'.segmentEnd = db.segmentEnd)
    (readSequence : db'.readSequence = db.readSequence) : Delivers db' content position :=
  ⟨delivers.1, delivers.2.imp fun _ ahead => ahead.fields inWal cursor segmentEnd readSequence⟩

theorem Ahead.expects (ahead : Ahead db content wanted rest) : db.readSequence = wanted % 18446744073709551616 := by
  cases ahead with
  | boundary front back wanted split here place ends expects past before low => exact expects
  | inside front back segment done todo split batches more here place ends expects =>
      have bounded := segment.bounded
      have length := congrArg List.length batches
      have some := List.length_pos_iff.mpr more
      rw [List.length_append] at length
      rw [expects, Nat.mod_eq_of_lt (by omega)]
  | wal done todo split here place expects => exact expects

/-- A read that takes the first of the batches in front of the cursor, or reports the end. -/
def Serves (store : Store) (R : Batches → List (Nat × Batch) → Prop) (db : Batches) (read : Io Delivery) :
    List (Nat × Batch) → Prop
  | [] => on read store = (.error .endOfData, store)
  | item :: later =>
      ∃ db', on read store = (.ok ⟨frameOf item.1 item.2, item.1, db'⟩, store) ∧ Moved db db' ∧
        db'.readSequence = next64 item.1 ∧ R db' later

/-- A relation between a cursor and the batches in front of it that every read keeps. -/
def Feeds (store : Store) (R : Batches → List (Nat × Batch) → Prop) : Prop :=
  ∀ db rest, R db rest → Serves store R db (readCursor db) rest

/-- The cursor of a handle that tracks a content. -/
def Standing (store : Store) (content : Content) (db : Batches) (rest : List (Nat × Batch)) : Prop :=
  Reading store db content ∧ ∃ wanted, Ahead db content wanted rest

theorem standing_feeds (store : Store) (content : Content) : Feeds store (Standing store content) := by
  rintro db rest ⟨reading, wanted, ahead⟩
  have read := read_cursor reading ahead
  cases rest with
  | nil => exact read
  | cons item later =>
      obtain ⟨db', ran, moved, next⟩ := read
      exact ⟨db', ran, moved, next.expects, reading.moved moved, _, next⟩

section Append
variable {batch : Batch} {more : content.high < uint64Max} {space : content.walEnd + batch.size ≤ walCapacity}

theorem exposed_append :
    (content.append batch more space).exposed = content.exposed ++ [(content.high + 1, batch)] := by
  have place : content.installed + 1 + content.pending.length = content.high + 1 := by
    simp only [Content.high]
    omega
  simp only [Content.exposed, Content.queued, Content.append]
  rw [number_append, place, ← List.append_assoc]
  rfl

theorem due_append {position : Nat} (low : position ≤ content.high + 1) :
    due (content.append batch more space) position = due content position ++ [(content.high + 1, batch)] := by
  unfold due
  rw [exposed_append, List.filter_append]
  simp [low]

theorem ahead_append (ahead : Ahead db content wanted rest) :
    Ahead db (content.append batch more space) wanted (rest ++ [(content.high + 1, batch)]) := by
  have place : content.installed + 1 + content.pending.length = content.high + 1 := by
    simp only [Content.high]
    omega
  have queue : (content.append batch more space).queued = content.queued ++ [(content.high + 1, batch)] := by
    simp only [Content.queued, Content.append]
    rw [number_append, place]
    rfl
  cases ahead with
  | boundary front back wanted split here cursor ends expects past before low =>
      rw [List.append_assoc, ← queue]
      exact .boundary front back wanted split here cursor ends expects past before low
  | inside front back segment done todo split batches some here cursor ends expects =>
      rw [List.append_assoc, List.append_assoc, ← queue]
      exact .inside front back segment done todo split batches some here cursor ends expects
  | wal done todo split here cursor expects =>
      have final : number (content.installed + 1 + done.length) todo ++ [(content.high + 1, batch)] =
          number (content.installed + 1 + done.length) (todo ++ [batch]) := by
        have length := congrArg List.length split
        rw [List.length_append] at length
        have last : content.installed + 1 + done.length + todo.length = content.high + 1 := by omega
        rw [number_append, last]
        rfl
      rw [final]
      refine .wal done (todo ++ [batch]) ?_ here cursor expects
      simp only [Content.append, split, List.append_assoc]

/-- An append leaves the cursor where it was; the new batch comes last. -/
theorem delivers_append {position : Nat} (delivers : Delivers db content position) :
    Delivers db (content.append batch more space) position := by
  obtain ⟨low, wanted, ahead⟩ := delivers
  refine ⟨?_, wanted, ?_⟩
  · simp only [Content.high, Content.append, List.length_append, List.length_singleton] at low ⊢
    omega
  · rw [due_append low]
    exact ahead_append ahead

end Append

section Checkpoint
variable {m : Manifests} {some : content.pending ≠ []}
  {space : content.dataEnd + (64 + framesSize content.pending) ≤ databaseCapacity}

theorem exposed_checkpoint : (content.checkpoint some space).exposed = content.exposed := by
  simp only [Content.exposed, Content.queued, Content.checkpoint, List.flatMap_append, List.flatMap_cons,
    List.flatMap_nil, number, List.append_nil]
  rfl

theorem due_checkpoint (position : Nat) : due (content.checkpoint some space) position = due content position := by
  unfold due
  rw [exposed_checkpoint]

/-- A WAL cursor moves to the same batch of the new segment. -/
theorem ahead_checkpoint (tracks : Tracks db content) (ahead : Ahead db content wanted rest) :
    Ahead (checkpointed db content m) (content.checkpoint some space) wanted rest := by
  have body : content.walEnd = 32 + framesSize content.pending := rfl
  have walEnd := tracks.walEnd
  have dataEnd := tracks.dataEnd
  have covered := content.covered
  have place : content.dataEnd = 160 + extent content.segments := rfl
  have size := content.pending_segment_size some
  have shape : (content.checkpoint some space).segments = content.segments ++ [content.pendingSegment some] := rfl
  have queue : (content.checkpoint some space).queued = [] := rfl
  have fresh : (content.pendingSegment some).numbered = content.queued := rfl
  have installed : (content.checkpoint some space).installed = content.high := rfl
  have high : content.high = content.installed + content.pending.length := rfl
  cases ahead with
  | boundary front back wanted split here cursor ends expects past before low =>
      have joined : back.flatMap Segment.numbered ++ content.queued =
          (back ++ [content.pendingSegment some]).flatMap Segment.numbered ++
            (content.checkpoint some space).queued := by
        rw [queue, List.flatMap_append, List.flatMap_cons, List.flatMap_nil, fresh]
        simp
      rw [joined]
      refine .boundary front (back ++ [content.pendingSegment some]) wanted ?_ rfl ?_ ?_ expects past ?_ ?_
      · rw [shape, split, List.append_assoc]
      · simp only [checkpointed, installedHandle, here, Bool.false_eq_true, if_false]
        exact cursor
      · simp only [checkpointed, installedHandle, here, Bool.false_eq_true, if_false]
        exact ends
      · intro next found
        cases back with
        | nil =>
            rw [List.nil_append, List.head?_cons, Option.some.injEq] at found
            rw [← found]
            exact low
        | cons head back =>
            rw [List.cons_append, List.head?_cons] at found
            exact before next found
      · omega
  | inside front back segment done todo split batches more here cursor ends expects =>
      have joined : back.flatMap Segment.numbered ++ content.queued =
          (back ++ [content.pendingSegment some]).flatMap Segment.numbered ++
            (content.checkpoint some space).queued := by
        rw [queue, List.flatMap_append, List.flatMap_cons, List.flatMap_nil, fresh]
        simp
      rw [joined]
      refine .inside front (back ++ [content.pendingSegment some]) segment done todo ?_ batches more rfl ?_ ?_ expects
      · rw [shape, split, List.append_assoc, List.cons_append]
      · simp only [checkpointed, installedHandle, here, Bool.false_eq_true, if_false]
        exact cursor
      · simp only [checkpointed, installedHandle, here, Bool.false_eq_true, if_false]
        exact ends
  | wal done todo split here cursor expects =>
      have sized := congrArg framesSize split
      have length := congrArg List.length split
      rw [frames_size_append] at sized
      rw [List.length_append] at length
      cases todo with
      | nil =>
          have empty : number (content.installed + 1 + done.length) [] =
              ([] : List Segment).flatMap Segment.numbered ++ (content.checkpoint some space).queued := by
            rw [queue]
            rfl
          rw [frames_size_nil] at sized
          rw [List.length_nil] at length
          rw [empty]
          refine .boundary (content.segments ++ [content.pendingSegment some]) [] _ ?_ rfl ?_ ?_ ?_ ?_
            (fun _ found => by cases found) (by omega)
          · rw [shape, List.append_nil]
          · simp only [checkpointed, installedHandle, here, if_true, extent_append, extent_cons, extent_nil]
            omega
          · simp only [checkpointed, installedHandle, here, if_true]
            omega
          · exact expects
          · rw [last_sequence_snoc, content.pending_segment_last]
            omega
      | cons batch later =>
          have joined : number (content.installed + 1 + done.length) (batch :: later) =
              number (content.installed + 1 + done.length) (batch :: later) ++
                (([] : List Segment).flatMap Segment.numbered ++ (content.checkpoint some space).queued) := by
            rw [queue]
            simp
          rw [List.length_cons] at length
          have small := content.numbered
          simp only [uint64Max] at small
          rw [joined]
          refine .inside content.segments [] (content.pendingSegment some) done (batch :: later) shape split (by simp)
            rfl ?_ ?_ ?_
          · have wide : (content.pendingSegment some).headerSize = 64 := by
              rw [Segment.header_size_wide]
              exact content.pending_segment_wide some
            simp only [checkpointed, installedHandle, here, if_true, wide]
            omega
          · simp only [checkpointed, installedHandle, here, if_true, extent_append, extent_cons, extent_nil]
            omega
          · have same : (checkpointed db content m).readSequence = db.readSequence := rfl
            rw [same, expects, Nat.mod_eq_of_lt (by omega)]
            rfl

theorem delivers_checkpoint {position : Nat} (tracks : Tracks db content) (delivers : Delivers db content position) :
    Delivers (checkpointed db content m) (content.checkpoint some space) position := by
  obtain ⟨low, wanted, ahead⟩ := delivers
  refine ⟨low, wanted, ?_⟩
  rw [due_checkpoint]
  exact ahead_checkpoint tracks ahead

end Checkpoint

end Moving

section Following

theorem reads_readWalCursor (db : Batches) (cursor expected : Nat) : Reads (readWalCursor db cursor expected) :=
  reads_ite (reads_fail _) (reads_bind (reads_readFrame _ _ _ _) fun _ => reads_pure _)

theorem reads_readInstalledCursor (db : Batches) (cursor segmentEnd expected : Nat) :
    Reads (readInstalledCursor db cursor segmentEnd expected) :=
  reads_bind (reads_complete (reads_readFrame _ _ _ _)) fun _ => reads_pure _

theorem reads_readCursor (db : Batches) : Reads (readCursor db) :=
  reads_ite (reads_readWalCursor _ _ _) (reads_ite (reads_readWalCursor _ _ _)
    (reads_ite (reads_bind (reads_readSegment _ _ _) fun _ => reads_bind (reads_require _ _) fun _ =>
      reads_readInstalledCursor _ _ _ _) (reads_readInstalledCursor _ _ _ _)))

theorem reads_relocateCursor (wanted fuel : Nat) (db : Batches) : Reads (relocateCursor wanted fuel db) := by
  induction fuel generalizing db with
  | zero => exact reads_fail _
  | succ fuel ih =>
      refine reads_ite (reads_pure _) (reads_examine (reads_readCursor _) (fun _ => rfl) fun result => ?_)
      cases result with
      | ok delivery => exact reads_ite (reads_pure _) (ih _)
      | error error => cases error <;> exact reads_done _

theorem relocate_cursor {target fuel : Nat} (reading : Reading store db content) (some : target ≠ 0)
    (ahead : Ahead db content wanted rest) (enough : rest.length < fuel) :
    ∃ db' wanted', on (relocateCursor target fuel db) store = (.ok db', store) ∧ Moved db db' ∧
      Ahead db' content wanted' (rest.filter fun item => decide (target ≤ item.1)) := by
  induction rest generalizing db wanted fuel with
  | nil =>
      obtain ⟨fuel, rfl⟩ : ∃ k, fuel = k + 1 := ⟨fuel - 1, by simp at enough; omega⟩
      have read : on (readCursor db) store = (.error .endOfData, store) := read_cursor reading ahead
      refine ⟨positionWal db db.walEnd (next64 db.sequence), content.high + 1, ?_, rfl, ahead_end reading.tracks⟩
      rw [relocateCursor, if_neg some, on_examine, read]
      rfl
  | cons item later ih =>
      obtain ⟨sequence, batch⟩ := item
      rw [List.length_cons] at enough
      obtain ⟨fuel, rfl⟩ : ∃ k, fuel = k + 1 := ⟨fuel - 1, by omega⟩
      obtain ⟨db', ran, moved, next⟩ : Takes store db content (readCursor db) ((sequence, batch) :: later) :=
        read_cursor reading ahead
      by_cases reached : target ≤ sequence
      · have all : ((sequence, batch) :: later).filter (fun item => decide (target ≤ item.1)) =
            (sequence, batch) :: later := by
          rw [List.filter_eq_self]
          intro item member
          rcases List.mem_cons.mp member with same | inside
          · rw [same]
            exact decide_eq_true reached
          · rw [next.due] at inside
            have late := of_decide_eq_true (List.mem_filter.mp inside).2
            exact decide_eq_true (by omega)
        refine ⟨db, wanted, ?_, rfl, by rw [all]; exact ahead⟩
        rw [relocateCursor, if_neg some, on_examine, ran]
        simp only
        rw [if_pos reached]
        rfl
      · obtain ⟨db'', wanted', ran', moved', ahead'⟩ := ih (reading.moved moved) next
          (show later.length < fuel by omega)
        refine ⟨db'', wanted', ?_, moved_trans moved moved', ?_⟩
        · rw [relocateCursor, if_neg some, on_examine, ran]
          simp only
          rw [if_neg reached]
          exact ran'
        · rw [List.filter_cons, if_neg (by simpa using reached)]
          exact ahead'

theorem numbered_length (segments : List Segment) : (segments.flatMap Segment.numbered).length ≤ extent segments := by
  induction segments with
  | nil => exact Nat.le_refl _
  | cons segment rest ih =>
      have body := segment.body_ge
      rw [List.flatMap_cons, List.length_append, extent_cons, Segment.numbered, number_length, Segment.size]
      omega

-- No cursor can advance more often than its fuel says.
theorem exposed_length (content : Content) : content.exposed.length + 2 ≤ content.dataEnd + content.walEnd := by
  have pending := frames_size_ge content.pending
  have whole := numbered_length content.segments
  simp only [Content.exposed, Content.queued, Content.dataEnd, Content.walEnd, List.length_append, number_length]
  omega

theorem due_length (content : Content) (position : Nat) :
    (due content position).length + 2 ≤ content.dataEnd + content.walEnd := by
  have whole := exposed_length content
  have part := List.length_filter_le (fun item => decide (position ≤ item.1)) content.exposed
  simp only [due] at *
  omega

theorem cursor_fuel (tracks : Tracks db content) (position : Nat) :
    (due content position).length < cursorFuel db := by
  have enough := due_length content position
  simp only [cursorFuel, tracks.dataEnd, tracks.walEnd]
  omega

/-- From the beginning, the cursor finds what is due from a position on. -/
theorem relocate_due {position : Nat} (reading : Reading store db content) (counted : 0 < position)
    (low : position ≤ 18446744073709551616) :
    ∃ db' wanted', on (relocateCursor (position % 18446744073709551616) (cursorFuel (resetCursor db)) (resetCursor db))
        store = (.ok db', store) ∧ Moved (resetCursor db) db' ∧ Ahead db' content wanted' (due content position) := by
  have moved : Moved db (resetCursor db) := rfl
  have reset := reading.moved moved
  have fuel := cursor_fuel reset.tracks 1
  have numbered := content.numbered
  simp only [uint64Max] at numbered
  rw [due_one] at fuel
  rcases Nat.lt_or_ge position 18446744073709551616 with small | large
  · rw [Nat.mod_eq_of_lt small]
    exact relocate_cursor reset (by omega) (ahead_reset db content) fuel
  · have wrapped : position = 18446744073709551616 := by omega
    subst wrapped
    obtain ⟨k, shape⟩ : ∃ k, cursorFuel (resetCursor db) = k + 1 := ⟨cursorFuel (resetCursor db) - 1, by omega⟩
    refine ⟨positionWal (resetCursor db) (resetCursor db).walEnd (next64 (resetCursor db).sequence),
      content.high + 1, ?_, rfl, ?_⟩
    · rw [shape, relocateCursor]
      simp only [Nat.mod_self, if_true]
      rfl
    · rw [due_end (by simp only [Content.high]; omega)]
      exact ahead_end reset.tracks

theorem frame_records (sequence : Nat) (batch : Batch) : frameRecords (frameOf sequence batch) = batch.records := by
  apply List.ext_getElem?
  intro i
  simp only [frameRecords, frame_of_records, List.getElem?_map]
  by_cases inside : i < batch.records.length
  · have found : batch.records[i]? = some batch.records[i] := List.getElem?_eq_getElem inside
    have held : Holds (frame sequence batch.records) (32 + i * 20) (encodeRecord batch.records[i]) := frame_record found
    rw [List.getElem?_range inside, found, Option.map_some]
    exact congrArg some (decode_record held)
  · rw [List.getElem?_eq_none (by simpa using inside), List.getElem?_eq_none (by simpa using inside)]
    rfl

section Next
variable {P : Bytes → Bytes → Prop} {identity : Bytes} {m : Manifests} {position capacity scratchSize : Nat}

/-- `next` at the end. -/
theorem next_end (serving : Serving store db identity content m) (safe : Safe P store)
    (delivers : Delivers db content position) (large : batchScratch ≤ scratchSize)
    (none : due content position = []) :
    Performs P (batchesNext db capacity scratchSize) db store (.error .endOfData, db) store := by
  obtain ⟨_, wanted, ahead⟩ := delivers
  rw [none] at ahead
  have read : on (readCursor db) store = (.error .endOfData, store) := read_cursor (serving_reading serving) ahead
  unfold batchesNext
  rw [serving.read_arguments, if_neg (by omega)]
  exact calls_reads_error safe (reads_readCursor db) read

/-- `next` delivers the first batch that is due. -/
theorem next_batch {sequence : Nat} {batch : Batch} {later : List (Nat × Batch)}
    (serving : Serving store db identity content m) (safe : Safe P store)
    (delivers : Delivers db content position) (large : batchScratch ≤ scratchSize)
    (first : due content position = (sequence, batch) :: later) :
    ∃ db', Performs P (batchesNext db capacity scratchSize) db store
        (if capacity < batch.records.length then (.error .bufferTooSmall, db)
          else (.ok (sequence, batch.records), db')) store ∧
      Moved db db' ∧ Delivers db' content (sequence + 1) := by
  obtain ⟨_, wanted, ahead⟩ := delivers
  rw [first] at ahead
  obtain ⟨db', ran, moved, next⟩ : Takes store db content (readCursor db) ((sequence, batch) :: later) :=
    read_cursor (serving_reading serving) ahead
  have member : (sequence, batch) ∈ content.exposed := by
    have inside : (sequence, batch) ∈ due content position := by rw [first]; simp
    exact (List.mem_filter.mp inside).1
  have bounds := exposed_bounds member
  refine ⟨copyCursor db db', ?_, copy_cursor_moved db db', ?_⟩
  · unfold batchesNext
    rw [serving.read_arguments, if_neg (by omega)]
    refine calls_reads safe (reads_readCursor db) ran ?_
    simp only [frame_of_records, frame_records]
    by_cases short : capacity < batch.records.length
    · rw [if_pos short, if_pos short]
      exact calls_done safe
    · rw [if_neg short, if_neg short]
      exact calls_done safe
  · rw [moved]
    exact next.delivers (by omega)

end Next

end Following

end Timelite.Cursor
