import Timelite.Lifting

/-!
What a reader delivers from any pair that open accepts. Open has read the headers
of the segments and not their bodies, so a body may hold fewer or more frames than
its header announces. The tour of a cursor over the bodies as they are delivers
what the headers announce, or stops at an error, unless such a body goes unnoticed.
-/
namespace Timelite.Touring
open ByteFile Program Durable Codec CodecLaws Backend BackendLaws Layout FrameLaws HeaderWalk Images Databases Decoding
  Grammar Reader Retention BatchApi System Opaque Refusing Walking Establishing Lifting

section Tours
variable {d : Bytes} {limit installed offset floor : Nat} {enabled : Bool}

/-- A batch that the cursor meets: its sequence number, and the segment it is read from. -/
abbrev Met := Nat × Option (Nat × SegmentInfo)

def meet (place : Option (Nat × SegmentInfo)) : (count sequence : Nat) → List Met
  | 0, _ => []
  | count + 1, sequence => (sequence, place) :: meet place count (next64 sequence)

/-- The batches from the first of `places` on to the end of the WAL, and whether the cursor gets there. -/
def tour (d : Bytes) (enabled : Bool) (pending : List Met) :
    (places : List (Nat × SegmentInfo)) → (expected : Nat) → List Met × Bool
  | [], _ => (pending, true)
  | place :: rest, expected =>
      if place.2.first = expected ∨ (enabled = true ∧ expected ≤ place.2.first) then
        let here := meet (some place) (bodyRun d place.1 place.2).1.length place.2.first
        match (bodyRun d place.1 place.2).2 with
        | none => (here, false)
        | some next =>
            (here ++ (tour d enabled pending rest next).1, (tour d enabled pending rest next).2)
      else ([], false)

def announced (info : SegmentInfo) : Nat := info.last - info.first + 1

def total (places : List (Nat × SegmentInfo)) : Nat := (places.map fun place => announced place.2).sum

/-- No body holds more frames than announced. One that holds fewer has a damaged
frame, or comes before another segment of a pair without retention. -/
def Counts (d : Bytes) (enabled : Bool) (ends : Prop) : (places : List (Nat × SegmentInfo)) → (missing : Nat) → Prop
  | [], missing => missing = 0 ∧ ends
  | place :: rest, missing =>
      (bodyRun d place.1 place.2).1.length ≤ announced place.2 ∧
        ((bodyRun d place.1 place.2).2 = none ∨
          (enabled = false ∧ (bodyRun d place.1 place.2).1.length < announced place.2 ∧ rest ≠ []) ∨
          Counts d enabled ends rest (missing + (announced place.2 - (bodyRun d place.1 place.2).1.length)))

/-- The segments lie one behind the other up to `limit`, with increasing sequence numbers. -/
def Laid (d : Bytes) (limit installed : Nat) (enabled : Bool) : (offset floor : Nat) → List (Nat × SegmentInfo) → Prop
  | offset, floor, [] => offset = limit ∧ floor ≤ installed
  | offset, floor, place :: rest =>
      place.1 = offset ∧ headerIn d offset limit = .ok place.2 ∧ floor < place.2.first ∧
        (enabled = true ∨ place.2.first = floor + 1) ∧
        Laid d limit installed enabled (offset + place.2.headerSize + place.2.body) place.2.last rest

/-- A tour behind `before` that keeps what the headers promise. -/
structure Good (places : List (Nat × SegmentInfo)) (count before missing : Nat) (met : List Met × Bool) : Prop where
  climbs : (met.1.map (·.1)).Pairwise (· < ·)
  above : ∀ item ∈ met.1, before < item.1
  within : ∀ item ∈ met.1, ∀ place, item.2 = some place → place.2.first ≤ item.1 ∧ item.1 ≤ place.2.last
  counted : met.2 = true → met.1.length = total places + count + missing

@[simp] theorem meet_length (place : Option (Nat × SegmentInfo)) (count sequence : Nat) :
    (meet place count sequence).length = count := by
  induction count generalizing sequence with
  | zero => rfl
  | succ count ih => rw [meet, List.length_cons, ih]

theorem mem_meet {place : Option (Nat × SegmentInfo)} {count sequence : Nat} (small : sequence < 18446744073709551616)
    (item : Met) : item ∈ meet place count sequence ↔
      item.2 = place ∧ ∃ i < count, item.1 = (sequence + i) % 18446744073709551616 := by
  induction count generalizing sequence with
  | zero => simp [meet]
  | succ count ih =>
      rw [meet, List.mem_cons, ih (next64_lt sequence)]
      constructor
      · rintro (rfl | ⟨same, i, inside, number⟩)
        · exact ⟨rfl, 0, Nat.succ_pos _, by simp only [Nat.add_zero]; exact (Nat.mod_eq_of_lt small).symm⟩
        · exact ⟨same, i + 1, by omega, by rw [number, next64]; omega⟩
      · rintro ⟨same, i, inside, number⟩
        cases i with
        | zero =>
            rw [Nat.add_zero, Nat.mod_eq_of_lt small] at number
            exact .inl (Prod.ext number same)
        | succ i => exact .inr ⟨same, i, by omega, by rw [number, next64]; omega⟩

theorem meet_climbs {place : Option (Nat × SegmentInfo)} {count sequence : Nat}
    (bounded : sequence + count ≤ 18446744073709551616) :
    ((meet place count sequence).map (·.1)).Pairwise (· < ·) := by
  induction count generalizing sequence with
  | zero => exact List.Pairwise.nil
  | succ count ih =>
      rw [meet, List.map_cons, List.pairwise_cons]
      by_cases last : sequence + 1 = 18446744073709551616
      · have none : count = 0 := by omega
        subst none
        exact ⟨fun _ member => absurd member List.not_mem_nil, List.Pairwise.nil⟩
      · have next : next64 sequence = sequence + 1 := Nat.mod_eq_of_lt (by omega)
        rw [next]
        refine ⟨fun number member => ?_, ih (by omega)⟩
        obtain ⟨item, inside, rfl⟩ := List.mem_map.mp member
        obtain ⟨_, i, few, number⟩ := (mem_meet (by omega) item).mp inside
        rw [number, Nat.mod_eq_of_lt (by omega)]
        omega

/-- Where the run of a body ends. -/
theorem run_next {place : Nat × SegmentInfo} {next : Nat} (found : headerIn d place.1 limit = .ok place.2)
    (whole : (bodyRun d place.1 place.2).2 = some next) :
    0 < (bodyRun d place.1 place.2).1.length ∧
      next = (place.2.first + (bodyRun d place.1 place.2).1.length) % 18446744073709551616 := by
  have header := header_in found
  have order := header.order
  have top := header.top
  have least := header.least
  obtain ⟨batches, _, tiles, counts, length⟩ := @run_batches d _ place.2.body _ place.2.first next (by omega) (by omega)
    (by omega) whole
  have length' : (bodyRun d place.1 place.2).1.length = batches.length := length
  rw [length']
  refine ⟨?_, counts⟩
  have most := frames_size_le batches
  omega

-- The first batches of a body.
theorem meet_inside {place : Nat × SegmentInfo} {n : Nat} (few : n ≤ announced place.2)
    (order : place.2.first ≤ place.2.last) (top : place.2.last < 18446744073709551616) :
    ∀ item ∈ meet (some place) n place.2.first, item.2 = some place ∧
      place.2.first ≤ item.1 ∧ item.1 + 1 ≤ place.2.first + n := by
  intro item member
  simp only [announced] at few
  obtain ⟨same, i, less, number⟩ := (mem_meet (by omega) item).mp member
  rw [Nat.mod_eq_of_lt (by omega)] at number
  exact ⟨same, by omega, by omega⟩

theorem good_stop {place : Nat × SegmentInfo} {rest : List (Nat × SegmentInfo)} {count before missing n : Nat}
    (few : n ≤ announced place.2) (order : place.2.first ≤ place.2.last) (top : place.2.last < 18446744073709551616)
    (behind : before < place.2.first) :
    Good (place :: rest) count before missing (meet (some place) n place.2.first, false) := by
  have inside := meet_inside few order top
  simp only [announced] at few
  refine ⟨meet_climbs (by omega), fun item member => ?_, fun item member place' same => ?_, fun reached => by cases reached⟩
  · have lower := (inside item member).2.1
    omega
  · obtain ⟨same', lower, upper⟩ := inside item member
    rw [same] at same'
    cases same'
    exact ⟨lower, by omega⟩

-- The batches of a body, and what comes after them.
theorem good_append {place : Nat × SegmentInfo} {rest : List (Nat × SegmentInfo)} {count before missing n : Nat}
    {met : List Met × Bool} (some_ : 0 < n) (few : n ≤ announced place.2) (order : place.2.first ≤ place.2.last)
    (top : place.2.last < 18446744073709551616) (behind : before < place.2.first) :
    Good (place :: rest) count before missing (meet (some place) n place.2.first ++ met.1, met.2) ↔
      Good rest count (place.2.first + n - 1) (missing + (announced place.2 - n)) met := by
  have bounded : place.2.first + n ≤ 18446744073709551616 := by
    simp only [announced] at few
    omega
  have inside := meet_inside few order top
  have sum : total (place :: rest) = announced place.2 + total rest := by
    rw [total, List.map_cons, List.sum_cons, total]
  constructor
  · rintro ⟨climbs, above, within, counted⟩
    simp only [List.map_append, List.pairwise_append] at climbs
    have last : ((place.2.first + n - 1, some place) : Met) ∈ meet (some place) n place.2.first :=
      (mem_meet (by omega) _).mpr ⟨rfl, n - 1, by omega, by rw [Nat.mod_eq_of_lt (by omega)]; omega⟩
    refine ⟨climbs.2.1, fun item member => ?_, fun item member => within item (List.mem_append_right _ member),
      fun reached => ?_⟩
    · exact climbs.2.2 _ (List.mem_map_of_mem last) _ (List.mem_map_of_mem member)
    · have length := counted reached
      rw [List.length_append, meet_length, sum] at length
      omega
  · rintro ⟨climbs, above, within, counted⟩
    refine ⟨?_, fun item member => ?_, fun item member => ?_, fun reached => ?_⟩
    · simp only [List.map_append, List.pairwise_append]
      refine ⟨meet_climbs bounded, climbs, fun left member right member' => ?_⟩
      obtain ⟨item, there, rfl⟩ := List.mem_map.mp member
      obtain ⟨item', there', rfl⟩ := List.mem_map.mp member'
      have upper := (inside item there).2.2
      have lower := above item' there'
      omega
    · rcases List.mem_append.mp member with here | later
      · have lower := (inside item here).2.1
        omega
      · have lower := above item later
        omega
    · rcases List.mem_append.mp member with here | later
      · intro place' same
        obtain ⟨same', lower, upper⟩ := inside item here
        rw [same] at same'
        cases same'
        simp only [announced] at few
        exact ⟨lower, by omega⟩
      · exact within item later
    · have length := counted reached
      simp only [List.length_append, meet_length, sum]
      omega

-- The batches of the WAL come after all others unless their sequence numbers go around.
theorem good_pending {count before missing : Nat} (order : before ≤ installed) (top : installed ≤ uint64Max)
    (few : count ≤ uint64Max) :
    Good [] count before missing (meet none count (next64 installed), true) ↔
      missing = 0 ∧ installed + count ≤ uint64Max := by
  have large : uint64Max = 18446744073709551615 := rfl
  have small := next64_lt installed
  have sum : total [] = 0 := rfl
  constructor
  · rintro ⟨_, above, _, counted⟩
    have length := counted rfl
    rw [meet_length, sum] at length
    refine ⟨by omega, ?_⟩
    by_contra beyond
    -- The number after the largest one is 0.
    have zero : ((0, none) : Met) ∈ meet none count (next64 installed) :=
      (mem_meet small _).mpr ⟨rfl, uint64Max - installed, by omega, by simp only [next64]; omega⟩
    exact absurd (above _ zero) (Nat.not_lt_zero _)
  · rintro ⟨rfl, bounded⟩
    have inside : ∀ item ∈ meet none count (next64 installed), item.2 = none ∧ installed < item.1 := by
      intro item member
      obtain ⟨same, i, less, number⟩ := (mem_meet small item).mp member
      refine ⟨same, ?_⟩
      rw [number, next64]
      omega
    refine ⟨?_, fun item member => Nat.lt_of_le_of_lt order (inside item member).2, fun item member place some_ => ?_,
      fun _ => by rw [meet_length, sum]; omega⟩
    · cases count with
      | zero => exact List.Pairwise.nil
      | succ count => exact meet_climbs (by simp only [next64]; omega)
    · rw [(inside item member).1] at some_
      cases some_

/-- A tour keeps what the headers promise exactly when the bodies count. -/
theorem good_iff {places : List (Nat × SegmentInfo)} {expected count before missing : Nat}
    (laid : Laid d limit installed enabled offset floor places) (order : before ≤ floor) (top : installed ≤ uint64Max)
    (few : count ≤ uint64Max) (next : places ≠ [] → expected ≤ floor + 1 ∧ (enabled = false → expected = floor + 1)) :
    Good places count before missing (tour d enabled (meet none count (next64 installed)) places expected) ↔
      Counts d enabled (installed + count ≤ uint64Max) places missing := by
  induction places generalizing offset floor expected before missing with
  | nil => exact good_pending (Nat.le_trans order laid.2) top few
  | cons place rest ih =>
      obtain ⟨position, found, above, follows, later⟩ := laid
      have header := header_in found
      have ordered := header.order
      have small := header.top
      obtain ⟨least, exact_⟩ := next (List.cons_ne_nil _ _)
      have passes : place.2.first = expected ∨ (enabled = true ∧ expected ≤ place.2.first) := by
        cases enabled with
        | true => exact .inr ⟨rfl, by omega⟩
        | false =>
            rcases follows with retained | same
            · cases retained
            · exact .inl (same.trans (exact_ rfl).symm)
      rw [tour, if_pos passes, Counts]
      simp only
      rw [← position] at found
      generalize shape : (bodyRun d place.1 place.2).1.length = n
      by_cases many : announced place.2 < n
      · refine iff_of_false (fun good => ?_) (fun counts => by omega)
        -- The frame after the announced ones is outside the segment.
        have extra : (((place.2.first + announced place.2) % 18446744073709551616, some place) : Met) ∈
            meet (some place) n place.2.first :=
          (mem_meet (by omega) _).mpr ⟨rfl, _, many, rfl⟩
        have outside : ∀ met : List Met × Bool, (∀ item ∈ meet (some place) n place.2.first, item ∈ met.1) →
            Good (place :: rest) count before missing met → False := by
          intro met part kept
          have bounds := kept.within _ (part _ extra) place rfl
          simp only [announced] at bounds
          omega
        revert good
        cases run : (bodyRun d place.1 place.2).2 with
        | none => exact outside _ fun item member => member
        | some last => exact outside _ fun item member => List.mem_append_left _ member
      · have few' : n ≤ announced place.2 := Nat.le_of_not_lt many
        cases run : (bodyRun d place.1 place.2).2 with
        | none => exact iff_of_true (good_stop few' ordered small (by omega)) ⟨few', .inl rfl⟩
        | some last =>
            simp only
            obtain ⟨some_, wraps⟩ := run_next found run
            rw [shape] at some_ wraps
            simp only [announced] at few'
            by_cases stops : enabled = false ∧ n < announced place.2 ∧ rest ≠ []
            · -- The next header does not follow on.
              obtain ⟨gapless, short, others⟩ := stops
              obtain ⟨after, rest', rfl⟩ := List.exists_cons_of_ne_nil others
              simp only [announced] at short
              obtain ⟨_, _, above', follows', _⟩ := later
              have breaks : ¬ (after.2.first = last ∨ (enabled = true ∧ last ≤ after.2.first)) := by
                rw [gapless] at follows' ⊢
                simp only [Bool.false_eq_true, false_or, false_and, or_false] at follows' ⊢
                omega
              rw [tour, if_neg breaks, List.append_nil]
              exact iff_of_true (good_stop few' ordered small (by omega)) ⟨few', .inr (.inl ⟨gapless, short, others⟩)⟩
            · have step := @ih _ _ last (place.2.first + n - 1) (missing + (announced place.2 - n)) later (by omega)
                (fun others => ?_)
              · rw [good_append some_ few' ordered small (by omega), step]
                constructor
                · exact fun counts => ⟨few', .inr (.inr counts)⟩
                · rintro ⟨_, none_ | stop | counts⟩
                  · cases none_
                  · exact absurd stop stops
                  · exact counts
              · obtain ⟨after, rest', rfl⟩ := List.exists_cons_of_ne_nil others
                have room := (header_in later.2.1).order
                have top' := (header_in later.2.1).top
                have above' := later.2.2.1
                refine ⟨by omega, fun gapless => ?_⟩
                have full : n = announced place.2 := by
                  by_contra short
                  exact stops ⟨gapless, by simp only [announced] at short ⊢; omega, others⟩
                simp only [announced] at full
                omega

/-- What is promised of a whole tour. -/
structure Kept (places : List (Nat × SegmentInfo)) (count : Nat) (met : List Met × Bool) : Prop where
  climbs : (met.1.map (·.1)).Pairwise (· < ·)
  within : ∀ item ∈ met.1, ∀ place, item.2 = some place → place.2.first ≤ item.1 ∧ item.1 ≤ place.2.last
  counted : met.2 = true → met.1.length = total places + count

theorem meet_cons {place : Option (Nat × SegmentInfo)} {count sequence : Nat} (some_ : 0 < count) :
    meet place count sequence = (sequence, place) :: meet place (count - 1) (next64 sequence) := by
  cases count with
  | zero => cases some_
  | succ count => rfl

-- A WAL alone may start behind the largest sequence number.
theorem kept_pending {count : Nat} (top : installed ≤ uint64Max) (few : count ≤ uint64Max) :
    Kept [] count (meet none count (next64 installed), true) ↔ installed + count ≤ uint64Max ∨ installed = uint64Max := by
  have large : uint64Max = 18446744073709551615 := rfl
  constructor
  · rintro ⟨climbs, _, _⟩
    by_contra beyond
    rw [not_or, Nat.not_le] at beyond
    have next : next64 installed = installed + 1 := Nat.mod_eq_of_lt (by omega)
    rw [next, meet_cons (by omega)] at climbs
    have zero : ((0, none) : Met) ∈ meet none (count - 1) (next64 (installed + 1)) :=
      (mem_meet (next64_lt _) _).mpr ⟨rfl, uint64Max - installed - 1, by omega, by simp only [next64]; omega⟩
    rw [List.map_cons, List.pairwise_cons] at climbs
    exact absurd (climbs.1 _ (List.mem_map_of_mem zero)) (Nat.not_lt_zero _)
  · intro bounded
    refine ⟨?_, fun item member place some_ => ?_, fun _ => by rw [meet_length]; exact (Nat.zero_add _).symm⟩
    · cases count with
      | zero => exact List.Pairwise.nil
      | succ count => exact meet_climbs (by simp only [next64]; omega)
    · rw [((mem_meet (next64_lt _) item).mp member).1] at some_
      cases some_

-- A tour that begins in a segment begins with the first batch of that segment.
theorem tour_head {pending : List Met} {place : Nat × SegmentInfo} {rest : List (Nat × SegmentInfo)} {expected : Nat}
    {item : Met} {later : List Met} (found : headerIn d place.1 limit = .ok place.2)
    (head : (tour d enabled pending (place :: rest) expected).1 = item :: later) : item.1 = place.2.first := by
  rw [tour] at head
  split at head
  · simp only at head
    cases run : (bodyRun d place.1 place.2).2 with
    | none =>
        rw [run] at head
        simp only at head
        by_cases some_ : 0 < (bodyRun d place.1 place.2).1.length
        · rw [meet_cons some_] at head
          cases head
          rfl
        · rw [Nat.eq_zero_of_not_pos some_] at head
          cases head
    | some next =>
        rw [run, meet_cons (run_next found run).1] at head
        cases head
        rfl
  · cases head

/-- A tour from the start keeps its promises exactly when the bodies count. -/
theorem kept_iff {places : List (Nat × SegmentInfo)} {count : Nat}
    (laid : Laid d limit installed enabled offset 0 places) (top : installed ≤ uint64Max) (few : count ≤ uint64Max) :
    Kept places count (tour d enabled (meet none count (next64 installed)) places 1) ↔
      Counts d enabled (installed + count ≤ uint64Max ∨ (installed = uint64Max ∧ places = [])) places 0 := by
  cases places with
  | nil =>
      have pending := @kept_pending installed count top few
      simp only [Counts, and_true, true_and]
      exact pending
  | cons place rest =>
      have good := @good_iff d limit installed offset 0 enabled (place :: rest) 1 count 0 0 laid (Nat.le_refl _) top few
        (fun _ => ⟨Nat.le_refl _, fun _ => rfl⟩)
      have ends : (installed + count ≤ uint64Max ∨ (installed = uint64Max ∧ place :: rest = [])) =
          (installed + count ≤ uint64Max) := by simp
      rw [ends, ← good]
      constructor
      · rintro ⟨climbs, within, counted⟩
        refine ⟨climbs, ?_, within, counted⟩
        obtain ⟨position, found, above, _, _⟩ := laid
        rw [← position] at found
        cases shape : (tour d enabled (meet none count (next64 installed)) (place :: rest) 1).1 with
        | nil => exact fun item member => absurd member List.not_mem_nil
        | cons first later =>
            have head := tour_head found shape
            rw [shape, List.map_cons, List.pairwise_cons] at climbs
            intro item member
            rcases List.mem_cons.mp member with rfl | behind
            · omega
            · have step := climbs.1 _ (List.mem_map_of_mem behind)
              omega
      · exact fun kept => ⟨kept.climbs, kept.within, kept.counted⟩

end Tours

section Places
variable {d d' : Bytes} {limit installed n offset floor position fuel sequence missing : Nat} {enabled : Bool} {ends : Prop}
  {walk last : Walk} {infos : List SegmentInfo}

/-- The segments of an image, each with its offset. -/
def segmentsFrom (d : Bytes) (limit : Nat) : (count offset : Nat) → List (Nat × SegmentInfo)
  | 0, _ => []
  | count + 1, offset =>
      match headerIn d offset limit with
      | .ok info => (offset, info) :: segmentsFrom d limit count (offset + info.headerSize + info.body)
      | .error _ => []

theorem segments_cons {count : Nat} {info : SegmentInfo} (found : headerIn d offset limit = .ok info) :
    segmentsFrom d limit (count + 1) offset =
      (offset, info) :: segmentsFrom d limit count (offset + info.headerSize + info.body) := by
  rw [segmentsFrom, found]

/-- The segments that the walk passes lie one behind the other. -/
theorem laid_of_passed (passed : Passed d limit enabled walk n infos last) (whole : last.offset = limit)
    (covered : last.sequence ≤ installed) :
    Laid d limit installed enabled walk.offset walk.sequence (segmentsFrom d limit infos.length walk.offset) ∧
      total (segmentsFrom d limit infos.length walk.offset) + walk.live = last.live := by
  induction passed with
  | done walk n => exact ⟨⟨whole, covered⟩, Nat.zero_add _⟩
  | @more walk last n info infos admits rest ih =>
      obtain ⟨laid, live⟩ := ih whole covered
      have found := admits.found
      rw [List.length_cons, segments_cons found]
      refine ⟨⟨rfl, found, admits.above, admits.next, laid⟩, ?_⟩
      have live' : (walk.step n info).live = walk.live + announced info := rfl
      have place : (walk.step n info).offset = walk.offset + info.headerSize + info.body := rfl
      rw [live', place] at live
      simp only [total, List.map_cons, List.sum_cons] at live ⊢
      omega

theorem frame_run_agree (same : Agree d d' position limit) :
    frameRun d limit fuel position sequence = frameRun d' limit fuel position sequence := by
  induction fuel generalizing position sequence with
  | zero => rfl
  | succ fuel ih =>
      have frames : frameIn d position limit sequence = frameIn d' position limit sequence := by
        change (on (readFrame .database position limit sequence) (image d)).1 = _
        rw [@read_frame_in d' position limit sequence (image d) same]
      by_cases more : position < limit
      · cases found : frameIn d' position limit sequence with
        | error error =>
            rw [frame_run_error more found, frame_run_error more (frames.trans found)]
        | ok frame =>
            rw [frame_run_ok more found, frame_run_ok more (frames.trans found), ih (same.mono (by omega) (Nat.le_refl _))]
      · rw [frame_run_end more, frame_run_end more]

theorem counts_agree {places : List (Nat × SegmentInfo)} (laid : Laid d limit installed enabled offset floor places)
    (same : Agree d d' offset limit) : Counts d enabled ends places missing ↔ Counts d' enabled ends places missing := by
  induction places generalizing offset floor missing with
  | nil => exact Iff.rfl
  | cons place rest ih =>
      obtain ⟨position, found, _, _, later⟩ := laid
      have fits := (header_in found).fits
      have run : bodyRun d place.1 place.2 = bodyRun d' place.1 place.2 :=
        frame_run_agree (same.mono (by omega) (by omega))
      rw [Counts, Counts, run, ih later (same.mono (by omega) (Nat.le_refl _))]

theorem segments_agree {count : Nat} (same : Agree d d' offset limit) :
    segmentsFrom d limit count offset = segmentsFrom d' limit count offset := by
  induction count generalizing offset with
  | zero => rfl
  | succ count ih =>
      rw [segmentsFrom, segmentsFrom, headers_agree same]
      cases found : headerIn d' offset limit with
      | error error => rfl
      | ok info =>
          simp only
          rw [ih (same.mono (by omega) (Nat.le_refl _))]

/-- Tiled bodies count. -/
theorem counts_tiled (passed : Passed d limit enabled walk n infos last) (tiling : Tiling d walk.offset infos) :
    Counts d enabled ends (segmentsFrom d limit infos.length walk.offset) missing ↔ missing = 0 ∧ ends := by
  induction passed generalizing missing with
  | done walk n => exact Iff.rfl
  | @more walk last n info infos admits rest ih =>
      have found := admits.found
      have order := (header_in found).order
      obtain ⟨tiled, others⟩ := tiling
      obtain ⟨batches, _, _, counts, length⟩ := tiled_batches found tiled
      have place : (walk.step n info).offset = walk.offset + info.headerSize + info.body := rfl
      have step := @ih missing others
      rw [place] at step
      have full : (bodyRun d walk.offset info).1.length = announced info := by
        simp only [announced]
        omega
      rw [List.length_cons, segments_cons found, Counts]
      simp only [full, Nat.sub_self, Nat.add_zero, Nat.lt_irrefl, false_and, and_false, false_or, Nat.le_refl, true_and, step]
      refine ⟨?_, .inr⟩
      rintro (damaged | counts')
      · rw [Tiled, damaged] at tiled
        cases tiled
      · exact counts'

end Places

end Timelite.Touring
