import Timelite.Touring

/-!
The lookup of an ordinal in any chain of headers that the walk of open has
passed. The bodies stay unread. The links of the wide headers come from the table
that the walk keeps, so that each one is the offset of the ordinal it stands for.
-/
namespace Timelite.Locating
open ByteFile Program Codec CodecLaws Backend BackendLaws Layout Links HeaderWalk Reader Retention Opaque Walking Lifting
  Touring

section Table
variable {d : Bytes} {limit n : Nat} {enabled : Bool} {walk last : Walk} {infos : List SegmentInfo}
  {done rest : List (Nat × SegmentInfo)}

/-- Where the k-th segment is, 0 for none. -/
def offsetOf (places : List (Nat × SegmentInfo)) : (k : Nat) → Nat
  | 0 => 0
  | k + 1 => (places[k]?.map (·.1)).getD 0

theorem offset_append {k : Nat} (inside : k ≤ done.length) : offsetOf (done ++ rest) k = offsetOf done k := by
  cases k with
  | zero => rfl
  | succ k => rw [offsetOf, offsetOf, List.getElem?_append_left (by omega)]

theorem offset_last (place : Nat × SegmentInfo) : offsetOf (done ++ [place]) (done.length + 1) = place.1 := by
  rw [offsetOf, List.getElem?_append_right (Nat.le_refl _), Nat.sub_self]
  rfl

/-- What the walk knows of the segments behind it. -/
structure Marks (done : List (Nat × SegmentInfo)) (walk : Walk) : Prop where
  previous : walk.previous = offsetOf done done.length
  length : walk.offsets.length = 24
  levels : ∀ j < 24, walk.offsets.getD j 0 = offsetOf done (floorTo done.length j)

theorem marks_start (root : Nat) : Marks [] (startWalk root) := by
  refine ⟨rfl, rfl, fun j small => ?_⟩
  have none : floorTo 0 j = 0 := by simp [floorTo]
  rw [List.length_nil, none]
  simp only [startWalk, List.getD_eq_getElem?_getD, List.getElem?_replicate, if_pos small]
  rfl

theorem marks_skip (marks : Marks done walk) (small : done.length + 1 < 16777216) :
    walk.offsets.getD (linkLevel (done.length + 1)) 0 = offsetOf done (done.length + 1 - lowBit (done.length + 1)) := by
  rw [marks.levels _ (level_lt (Nat.add_one_ne_zero _) small), floor_level (by omega)]

theorem marks_step (marks : Marks done walk) (small : done.length + 1 < 16777216) (info : SegmentInfo) :
    Marks (done ++ [(walk.offset, info)]) (walk.step (done.length + 1) info) := by
  have bound := level_lt (Nat.add_one_ne_zero done.length) small
  have length := marks.length
  refine ⟨?_, ?_, fun j near => ?_⟩
  · rw [List.length_append, List.length_singleton, offset_last]
    rfl
  · change (markLevels walk.offsets (linkLevel (done.length + 1)) walk.offset).length = 24
    simp only [markLevels, List.length_append, List.length_replicate, List.length_drop]
    omega
  · change (markLevels walk.offsets (linkLevel (done.length + 1)) walk.offset).getD j 0 = _
    rw [mark_levels_get, List.length_append, List.length_singleton]
    by_cases low : j ≤ linkLevel (done.length + 1)
    · rw [if_pos low, floor_low (Nat.add_one_ne_zero _) (by omega) low, offset_last]
    · have below := floor_le done.length j
      rw [if_neg low, floor_high (by omega) (by omega), marks.levels j near, offset_append below]

/-- The links that the wide headers carry. -/
def Links (places : List (Nat × SegmentInfo)) (i : Nat) (info : SegmentInfo) : Prop :=
  info.headerSize = 64 → info.previous = offsetOf places i ∧ info.skip = offsetOf places (i + 1 - lowBit (i + 1))

theorem passed_links (passed : Passed d limit enabled walk n infos last) (marks : Marks done walk)
    (ordinal : n = done.length + 1) (few : done.length + infos.length < 16777216) :
    (∀ i place, (segmentsFrom d limit infos.length walk.offset)[i]? = some place →
        Links (done ++ segmentsFrom d limit infos.length walk.offset) (done.length + i) place.2) ∧
      last.previous =
        offsetOf (done ++ segmentsFrom d limit infos.length walk.offset) (done.length + infos.length) := by
  induction passed generalizing done with
  | done walk n => exact ⟨fun i place found => (by cases found), marks.previous.trans (offset_append (Nat.le_refl _)).symm⟩
  | @more walk last n info infos admits rest ih =>
      subst ordinal
      rw [List.length_cons] at few
      have later := @ih (done ++ [(walk.offset, info)]) (marks_step marks (by omega) info) (by simp) (by simp; omega)
      have place : (walk.step (done.length + 1) info).offset = walk.offset + info.headerSize + info.body := rfl
      rw [place, List.append_assoc, List.singleton_append, List.length_append, List.length_singleton] at later
      rw [List.length_cons, segments_cons admits.found]
      refine ⟨fun i item found => ?_, ?_⟩
      · cases i with
        | zero =>
            cases found
            intro wide
            obtain ⟨previous, skip⟩ := admits.links wide
            have low := low_bit_pos (Nat.add_one_ne_zero done.length) (by omega)
            rw [Nat.add_zero, offset_append (Nat.le_refl _), offset_append (by omega), previous, skip,
              marks_skip marks (by omega)]
            exact ⟨marks.previous, rfl⟩
        | succ i =>
            have shift : done.length + (i + 1) = done.length + 1 + i := by omega
            rw [shift]
            exact later.1 i item found
      · have shift : done.length + (infos.length + 1) = done.length + 1 + infos.length := by omega
        rw [shift]
        exact later.2

-- A segment takes 116 bytes or more.
theorem passed_few (passed : Passed d limit enabled walk n infos last) :
    walk.offset + 116 * infos.length ≤ last.offset := by
  induction passed with
  | done walk n => exact Nat.le_refl _
  | @more walk last n info infos admits rest ih =>
      have header := header_in admits.found
      have least := header.least
      have place : (walk.step n info).offset = walk.offset + info.headerSize + info.body := rfl
      rw [place] at ih
      rw [List.length_cons]
      rcases header.size with size | size <;> omega

theorem passed_length (passed : Passed d limit enabled walk n infos last) :
    (segmentsFrom d limit infos.length walk.offset).length = infos.length := by
  induction passed with
  | done walk n => rfl
  | @more walk last n info infos admits rest ih =>
      have place : (walk.step n info).offset = walk.offset + info.headerSize + info.body := rfl
      rw [place] at ih
      rw [List.length_cons, segments_cons admits.found, List.length_cons, ih]

end Table

section Strings
variable {limit installed offset floor target : Nat} {enabled : Bool} {places : List (Nat × SegmentInfo)} {store : Store}

theorem laid_nth {d : Bytes} (laid : Laid d limit installed enabled offset floor places) {i : Nat} {place : Nat × SegmentInfo}
    (found : places[i]? = some place) :
    headerIn d place.1 limit = .ok place.2 ∧ (i = 0 → place.1 = offset) ∧
      ∀ after, places[i + 1]? = some after → after.1 = place.1 + place.2.headerSize + place.2.body := by
  induction places generalizing offset floor i with
  | nil => cases found
  | cons first rest ih =>
      obtain ⟨position, held, _, _, later⟩ := laid
      cases i with
      | zero =>
          cases found
          rw [← position] at held later
          refine ⟨held, fun _ => position, fun after next => ?_⟩
          cases rest with
          | nil => cases next
          | cons second rest =>
              cases next
              exact later.1
      | succ i =>
          obtain ⟨held, _, next⟩ := ih later found
          exact ⟨held, fun zero => absurd zero (Nat.succ_ne_zero i), next⟩

/-- A chain from the start of the data with its links. -/
structure Strung (store : Store) (limit installed : Nat) (enabled : Bool) (places : List (Nat × SegmentInfo)) : Prop where
  laid : Laid (store.content .database) limit installed enabled dataStart 0 places
  links : ∀ i place, places[i]? = some place → Links places i place.2
  few : places.length < 16777216

theorem Strung.read (strung : Strung store limit installed enabled places) {i : Nat} {place : Nat × SegmentInfo}
    (found : places[i]? = some place) :
    on (readSegment .database (offsetOf places (i + 1)) limit) store = (.ok place.2, store) := by
  rw [offsetOf, found, read_header (agree_refl _ _ _)]
  exact Prod.ext (laid_nth strung.laid found).1 rfl

theorem Strung.forward_at (strung : Strung store limit installed enabled places) {steps i : Nat} {place : Nat × SegmentInfo}
    (found : places[i + steps]? = some place) :
    on (forwardAt limit steps (offsetOf places (i + 1))) store = (.ok place, store) := by
  induction steps generalizing i with
  | zero =>
      rw [forwardAt, on_bind_ok (strung.read found), offsetOf, show places[i]? = some place from found]
      rfl
  | succ steps ih =>
      have inside := (List.getElem?_eq_some_iff.mp found).1
      have current : places[i]? = some places[i] := List.getElem?_eq_getElem (by omega)
      have after : places[i + 1]? = some places[i + 1] := List.getElem?_eq_getElem (by omega)
      have moved : offsetOf places (i + 1) + places[i].2.headerSize + places[i].2.body = offsetOf places (i + 1 + 1) := by
        rw [offsetOf, offsetOf, current, after]
        exact ((laid_nth strung.laid current).2.2 _ after).symm
      have shift : i + (steps + 1) = i + 1 + steps := by omega
      rw [shift] at found
      rw [forwardAt, on_bind_ok (strung.read current), moved]
      exact ih found

-- The walk is at the offset of ordinal n, whether it came by a skip or a step.
theorem Strung.segment_walk (strung : Strung store limit installed enabled places) {fuel n : Nat} {place : Nat × SegmentInfo}
    (found : places[target]? = some place) (below : target < n) (inside : n ≤ places.length) (enough : n ≤ fuel) :
    on (segmentWalk limit (target + 1) fuel n (offsetOf places n)) store = (.ok place, store) := by
  have few := strung.few
  induction fuel generalizing n with
  | zero => omega
  | succ fuel ih =>
      obtain ⟨m, rfl⟩ : ∃ m, n = m + 1 := ⟨n - 1, by omega⟩
      have current : places[m]? = some places[m] := List.getElem?_eq_getElem (by omega)
      have low := low_bit_pos (n := m + 1) (by omega) (by omega)
      rw [segmentWalk, if_neg (by omega), on_bind_ok (strung.read current)]
      by_cases here : m = target
      · subst here
        rw [found] at current
        have same := Option.some.inj current
        rw [if_pos rfl, ← same, offsetOf, found]
        rfl
      · rw [if_neg (by omega)]
        by_cases narrow : places[m].2.headerSize = 32
        · have start : dataStart = offsetOf places (0 + 1) := by
            have first : places[0]? = some places[0] := List.getElem?_eq_getElem (by omega)
            rw [offsetOf, first]
            exact ((laid_nth strung.laid first).2.1 rfl).symm
          rw [if_pos narrow, Nat.add_sub_cancel, start]
          exact strung.forward_at ((congrArg (places[·]?) (Nat.zero_add target)).trans found)
        · have wide : places[m].2.headerSize = 64 :=
            (header_in (laid_nth strung.laid current).1).size.resolve_left narrow
          obtain ⟨previous, skip⟩ := strung.links m _ current wide
          rw [if_neg narrow, previous, skip, Nat.add_sub_cancel]
          split
          · exact ih (by omega) (by omega) (by omega)
          · exact ih (by omega) (by omega) (by omega)

end Strings

section Lookup
variable {store : Store} {generation dataEnd last tail lastTime : Nat} {hasTime : Bool} {state : RetentionState}
  {checked : Checked}

theorem strung_of_checked (root : state.root = dataStart) (capacity : dataEnd ≤ databaseCapacity)
    (ran : (on (checkSegments generation dataEnd last tail lastTime hasTime state) store).1 = .ok checked) :
    (segmentsFrom (store.content .database) dataEnd generation dataStart).length = generation ∧
      checked.tail = offsetOf (segmentsFrom (store.content .database) dataEnd generation dataStart) generation ∧
      Strung store dataEnd last state.enabled
        (segmentsFrom (store.content .database) dataEnd generation dataStart) := by
  obtain ⟨infos, walk, surveyed⟩ := surveyed ran
  have passed := surveyed.passed
  rw [root] at passed
  have few := passed_few passed
  rw [surveyed.ends] at few
  simp only [databaseCapacity] at capacity
  have count := passed_length passed
  obtain ⟨links, previous⟩ := passed_links passed (marks_start dataStart) rfl (by simp; omega)
  have laid := (laid_of_passed passed surveyed.ends surveyed.covered).1
  have start : (startWalk dataStart).offset = dataStart := rfl
  rw [surveyed.count, start] at count laid
  simp only [List.nil_append, List.length_nil, Nat.zero_add, surveyed.count, start] at links previous
  exact ⟨count, surveyed.tail.trans previous, laid, links, by have size := surveyed.count; omega⟩

/-- From the tail of any chain that open accepts, the lookup of an ordinal ends at
the segment that comes in that place. -/
theorem ordinal_lookup (root : state.root = dataStart) (capacity : dataEnd ≤ databaseCapacity)
    (ran : (on (checkSegments generation dataEnd last tail lastTime hasTime state) store).1 = .ok checked) :
    (segmentsFrom (store.content .database) dataEnd generation dataStart).length = generation ∧
      (∀ k info, (segmentsFrom (store.content .database) dataEnd generation dataStart).getLast? = some (k, info) →
        checked.tail = k) ∧
      ∀ target, 1 ≤ target → target ≤ generation → ∃ place,
        (segmentsFrom (store.content .database) dataEnd generation dataStart)[target - 1]? = some place ∧
          on (segmentAt dataEnd generation checked.tail target) store = (.ok place, store) := by
  obtain ⟨count, ends, strung⟩ := strung_of_checked root capacity ran
  refine ⟨count, fun k info final => ?_, fun target least most => ?_⟩
  · rw [List.getLast?_eq_getElem?, count] at final
    rw [ends]
    cases generation with
    | zero =>
        rw [List.getElem?_eq_none (by omega)] at final
        cases final
    | succ generation =>
        rw [offsetOf, show (segmentsFrom (store.content .database) dataEnd (generation + 1) dataStart)[generation]? =
          some (k, info) from final]
        rfl
  · obtain ⟨m, rfl⟩ : ∃ m, target = m + 1 := ⟨target - 1, by omega⟩
    have found := List.getElem?_eq_getElem (show m < _ by rw [count]; exact most)
    refine ⟨_, found, ?_⟩
    rw [segmentAt, ends]
    exact strung.segment_walk found most (by omega) (Nat.le_refl _)

def oneBatch : Batch := ⟨[⟨7, 5, 9⟩], by decide, by decide⟩

/-- A narrow segment before a wide one. -/
def mixedChain : List Segment :=
  [⟨.legacy, 1, 0, uint64Max, [oneBatch], by decide, by decide, by decide, by decide, Nat.zero_le uint64Max, by decide, fun _ => ⟨rfl, rfl⟩⟩,
    ⟨.span, 2, 5, 5, [oneBatch], by decide, by decide, by decide, by decide, by decide, by decide, fun legacy => by cases legacy⟩]

theorem ordinal_lookup_narrow : ∃ place,
    (segmentsFrom (List.replicate 160 0 ++ chain 160 [] mixedChain) 424 2 dataStart)[0]? = some place ∧
      on (segmentAt 424 2 276 1) (image (List.replicate 160 0 ++ chain 160 [] mixedChain)) =
        (.ok place, image (List.replicate 160 0 ++ chain 160 [] mixedChain)) := by
  have ran : (on (checkSegments 2 424 2 276 5 true ⟨1, 160, 0, false⟩)
      (image (List.replicate 160 0 ++ chain 160 [] mixedChain))).1 = .ok ⟨276, 5, 2, 2⟩ := by
    decide +kernel
  exact (ordinal_lookup rfl (by decide) ran).2.2 1 (by decide) (by decide)

end Lookup

end Timelite.Locating
