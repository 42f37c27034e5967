import Timelite.FrameLaws
import Timelite.Links

/-!
The readers of installed segments against a chain: one header, the header walk
of open, and the lookup of an ordinal through the links.
-/
namespace Timelite.SegmentLaws
open ByteFile Program Codec CodecLaws Backend BackendLaws Layout FrameLaws Links Reader

section Headers

-- A link is absent or lies between the data start and the segment.
def Linked (offset link : Nat) : Prop := link = 0 ∨ 160 ≤ link ∧ link < offset

theorem parse_wide {segment : Segment} {previous skip offset limit : Nat} {header : Bytes}
    (wide : segment.wide = true) (same : header = segment.header previous skip)
    (fits : offset + segment.size ≤ limit) (large : offset < 4294967296)
    (back : Linked offset previous) (jump : Linked offset skip) :
    parseSegment header 64 segment.ordered offset limit = some (segment.info previous skip) := by
  have size : segment.headerSize = 64 := segment.header_size_wide.mpr wide
  have held : Holds header 0 (segment.header previous skip) := same ▸ holds_self header
  rw [Segment.header, if_pos wide] at held
  obtain ⟨_, first, last, body, minimum, maximum, previous', skip', checks⟩ := segment_fields held
  have bodyFits := segment.body_fits
  have maximumFits := segment.small
  have ordered := segment.spans
  have least := segment.body_ge
  have most := segment.body_le
  have counted := segment.counted
  have inside := segment.first_le_last
  have below := segment.last_lt
  have count := segment.count_eq
  have least' : segment.batches.length ≤ segment.body / 84 := by omega
  unfold Linked at back jump
  simp only [uint64Max] at maximumFits
  simp only [Segment.size, size] at fits
  simp only [parseSegment, decode64_holds first (by omega), decode64_holds last (by omega),
    decode32_holds body (by omega), decode64_holds minimum (by omega),
    decode64_holds maximum (by omega), decode64_holds previous' (by omega),
    decode64_holds skip' (by omega), Nat.reduceSub, if_true, count, walCapacity, batchScratch]
  rw [if_neg (by simpa using checks), if_neg (by omega), if_neg (by omega), if_neg (by omega)]
  simp only [Segment.info, wide, if_true, size]

theorem narrow_fields {m : Bytes} {first last body : Nat}
    (held : Holds m 0 (sealed (segmentMagic ++ encode64 first ++ encode64 last ++ encode32 body))) :
    Holds m 0 segmentMagic ∧ Holds m 8 (encode64 first) ∧ Holds m 16 (encode64 last) ∧
      Holds m 24 (encode32 body) ∧ checksum (m.take 28) = decode32 (m.drop 28) := by
  have checks := sealed_checks held
  rw [sealed, holds_append] at held
  have inner := held.1
  simp only [holds_append, List.length_append, encode64_length, encode32_length, segmentMagic,
    List.length_cons, List.length_nil] at inner checks
  simp only [segmentMagic]
  obtain ⟨⟨⟨a, b⟩, c⟩, d⟩ := inner
  exact ⟨a, b, c, d, checks⟩

theorem parse_narrow {segment : Segment} {previous skip offset limit : Nat} {header : Bytes}
    (narrow : segment.wide = false) (same : header = segment.header previous skip)
    (fits : offset + segment.size ≤ limit) :
    parseSegment header 32 false offset limit = some (segment.info previous skip) := by
  have legacy : segment.kind = .legacy := by simpa [Segment.wide] using narrow
  have size : segment.headerSize = 32 := by simp [Segment.headerSize, narrow]
  have unordered : segment.ordered = false := by simp [Segment.ordered, legacy]
  obtain ⟨zero, top⟩ := segment.unknown legacy
  have held : Holds header 0 (segment.header previous skip) := same ▸ holds_self header
  rw [Segment.header, narrow] at held
  obtain ⟨_, first, last, body, checks⟩ := narrow_fields held
  have bodyFits := segment.body_fits
  have least := segment.body_ge
  have most := segment.body_le
  have counted := segment.counted
  have inside := segment.first_le_last
  have below := segment.last_lt
  have count := segment.count_eq
  have least' : segment.batches.length ≤ segment.body / 84 := by omega
  simp only [Segment.size, size] at fits
  simp only [parseSegment, decode64_holds first (by omega), decode64_holds last (by omega),
    decode32_holds body (by omega), Nat.reduceSub, Nat.reduceEqDiff, if_false, count, walCapacity,
    batchScratch, uint64Max]
  rw [if_neg (by simpa using checks), if_neg (by omega), if_neg (by omega), if_neg (by omega)]
  simp only [Segment.info, narrow, zero, top, size, unordered, uint64Max]
  rfl

theorem narrow_magic {segment : Segment} {previous skip : Nat} (narrow : segment.wide = false) :
    (segment.header previous skip).take 8 = segmentMagic := by
  rw [Segment.header, narrow]
  exact take_holds (narrow_fields (holds_self _)).1 rfl

theorem wide_magic {segment : Segment} {previous skip : Nat} (wide : segment.wide = true) :
    (segment.header previous skip).take 8 = if segment.ordered then spanMagic else unorderedMagic := by
  rw [Segment.header, if_pos wide]
  refine take_holds (segment_fields (holds_self _)).1 ?_
  cases segment.ordered <;> rfl

theorem reads_readSegment (file : File) (offset limit : Nat) : Reads (readSegment file offset limit) := by
  refine reads_bind (reads_require _ _) fun _ => reads_bind (reads_read_exact _ _ _) fun front => ?_
  refine reads_ite (reads_bind (reads_require _ _) fun _ => reads_bind (reads_read_exact _ _ _)
    fun back => ?_) (reads_bind (reads_require _ _) fun _ => ?_)
  · cases parseSegment (front ++ back) 64 (decide (front.take 8 = spanMagic)) offset limit with
    | none => exact reads_fail _
    | some segment => exact reads_pure _
  · cases parseSegment front 32 false offset limit with
    | none => exact reads_fail _
    | some segment => exact reads_pure _

-- Only the bytes of the header decide.
theorem read_header {file : File} {store : Store} {segment : Segment}
    {previous skip offset limit : Nat}
    (header : Holds (store.content file) offset (segment.header previous skip))
    (fits : offset + segment.size ≤ limit) (large : offset < 4294967296)
    (back : Linked offset previous) (jump : Linked offset skip) :
    on (readSegment file offset limit) store = (.ok (segment.info previous skip), store) := by
  have length := segment.header_length previous skip
  have least := segment.body_ge
  have some := segment.length_pos
  have size : segment.size = segment.headerSize + segment.body := rfl
  rcases segment.header_size_cases with ⟨headerSize, wide⟩ | ⟨headerSize, narrow⟩
  · have magic : ((segment.header previous skip).take 32).take 8 =
        if segment.ordered then spanMagic else unorderedMagic := by
      rw [List.take_take, Nat.min_eq_left (by omega), wide_magic wide]
    have front := on_read_holds (header.take 32) (show _ = 32 by simp [length, headerSize])
    have rest := on_read_holds (header.drop 32 (by omega)) (show _ = 32 by simp [length, headerSize])
    have flag : decide (((segment.header previous skip).take 32).take 8 = spanMagic) = segment.ordered := by
      rw [magic]
      cases segment.ordered <;> decide
    have known : segment.ordered = true ∨
        ((segment.header previous skip).take 32).take 8 = unorderedMagic := by
      rw [magic]
      cases segment.ordered <;> simp
    rw [readSegment, on_require_bind, if_pos (by omega), on_bind_ok front]
    simp only [flag, known, if_true]
    rw [on_require_bind, if_pos (by omega), on_bind_ok rest, List.take_append_drop,
      parse_wide wide rfl fits large back jump]
    rfl
  · have magic : (segment.header previous skip).take 8 = segmentMagic := narrow_magic narrow
    have front := on_read_holds header (by rw [length, headerSize])
    have spans : ¬ (decide ((segment.header previous skip).take 8 = spanMagic) = true ∨
        (segment.header previous skip).take 8 = unorderedMagic) := by
      rw [magic]
      decide
    rw [readSegment, on_require_bind, if_pos (by omega), on_bind_ok front]
    simp only [spans, if_false]
    rw [on_require_bind, if_pos magic, parse_narrow narrow rfl fits]
    rfl

theorem read_segment {file : File} {store : Store} {segment : Segment}
    {previous skip offset limit : Nat}
    (held : Holds (store.content file) offset (segment.image previous skip))
    (fits : offset + segment.size ≤ limit) (large : offset < 4294967296)
    (back : Linked offset previous) (jump : Linked offset skip) :
    on (readSegment file offset limit) store = (.ok (segment.info previous skip), store) :=
  read_header ((holds_append _ _ _ _).mp held).1 fits large back jump

end Headers

section Chains
variable {store : Store} {root limit : Nat} {segments done rest : List Segment} {segment : Segment}

/-- The header of ordinal `i + 1` as read from the chain. -/
def infoAt (root : Nat) (segments : List Segment) (i : Nat) (segment : Segment) : SegmentInfo :=
  segment.info (linkTo root segments i) (linkTo root segments (i + 1 - lowBit (i + 1)))

section Fields
variable (root : Nat) (segments : List Segment) (i : Nat) (segment : Segment)

@[simp] theorem info_at_first : (infoAt root segments i segment).first = segment.first := rfl
@[simp] theorem info_at_last : (infoAt root segments i segment).last = segment.last := rfl
@[simp] theorem info_at_minimum : (infoAt root segments i segment).minimum = segment.minimum := rfl
@[simp] theorem info_at_maximum : (infoAt root segments i segment).maximum = segment.maximum := rfl
@[simp] theorem info_at_body : (infoAt root segments i segment).body = segment.body := rfl
@[simp] theorem info_at_header : (infoAt root segments i segment).headerSize = segment.headerSize := rfl
@[simp] theorem info_at_ordered : (infoAt root segments i segment).ordered = segment.ordered := rfl

end Fields

/-- The installed bytes: a chain that ends at or before `limit`. -/
structure Chained (store : Store) (root limit : Nat) (segments : List Segment) : Prop where
  held : Holds (store.content .database) root (chain root [] segments)
  above : 160 ≤ root
  inside : root + extent segments ≤ limit
  capacity : limit ≤ databaseCapacity

theorem linked_of_le (above : 160 ≤ root) {k : Nat} (inside : k ≤ done.length) :
    Linked (root + extent done) (linkTo root done k) := by
  by_cases zero : k = 0
  · exact .inl (by rw [zero]; rfl)
  · exact .inr ⟨le_trans above (link_ge root done zero), link_lt inside zero⟩

theorem Chained.count_lt (chained : Chained store root limit segments) :
    segments.length < 16777215 := by
  have least := extent_ge segments
  have := chained.inside
  have := chained.capacity
  have := chained.above
  simp only [databaseCapacity] at *
  omega

theorem Chained.position_lt (chained : Chained store root limit (done ++ rest)) :
    root + extent done < 4294967296 := by
  have := chained.inside
  have := chained.capacity
  simp only [databaseCapacity, extent_append] at *
  omega

theorem Chained.segment_held (chained : Chained store root limit (done ++ segment :: rest)) :
    Holds (store.content .database) (root + extent done)
      (segment.image (linkTo root done done.length)
        (linkTo root done (done.length + 1 - lowBit (done.length + 1)))) :=
  chain_segment chained.held

theorem Chained.frames_held (chained : Chained store root limit (done ++ segment :: rest)) :
    Holds (store.content .database) (root + extent done + segment.headerSize)
      (frames segment.first segment.batches) := by
  have held := chained.segment_held
  rw [Segment.image, holds_append, Segment.header_length] at held
  exact held.2

theorem info_at_done (root : Nat) (done rest : List Segment) (segment : Segment) :
    infoAt root (done ++ segment :: rest) done.length segment =
      segment.info (linkTo root done done.length)
        (linkTo root done (done.length + 1 - lowBit (done.length + 1))) := by
  rw [infoAt, link_append _ _ _ (by omega), link_append _ _ _ (by omega)]

theorem Chained.read (chained : Chained store root limit (done ++ segment :: rest)) :
    on (readSegment .database (root + extent done) limit) store =
      (.ok (infoAt root (done ++ segment :: rest) done.length segment), store) := by
  have fits := chained.inside
  have count := chained.count_lt
  simp only [extent_append, extent_cons, List.length_append, List.length_cons] at fits count
  have low := low_bit_pos (n := done.length + 1) (by omega) (by omega)
  rw [info_at_done]
  exact read_segment chained.segment_held (by omega) chained.position_lt
    (linked_of_le chained.above (Nat.le_refl _)) (linked_of_le chained.above (by omega))

-- The same by ordinal.
theorem nth_split {i : Nat} (found : segments[i]? = some segment) :
    segments = segments.take i ++ segment :: segments.drop (i + 1) := by
  obtain ⟨inside, same⟩ := List.getElem?_eq_some_iff.mp found
  rw [← same, ← List.drop_eq_getElem_cons inside, List.take_append_drop]

theorem Chained.read_nth (chained : Chained store root limit segments) {i : Nat}
    (found : segments[i]? = some segment) :
    on (readSegment .database (linkTo root segments (i + 1)) limit) store =
      (.ok (infoAt root segments i segment), store) := by
  have split := nth_split found
  have inside := (List.getElem?_eq_some_iff.mp found).1
  have length : (segments.take i).length = i := by simp; omega
  have ran := Chained.read (split ▸ chained)
  rw [← split, length] at ran
  rw [link_succ]
  exact ran

end Chains

section Lookup
variable {store : Store} {limit : Nat} {segments : List Segment}

theorem reads_forwardAt (limit steps current : Nat) : Reads (forwardAt limit steps current) := by
  induction steps generalizing current with
  | zero => exact reads_bind (reads_readSegment _ _ _) fun _ => reads_pure _
  | succ steps ih => exact reads_bind (reads_readSegment _ _ _) fun _ => ih _

theorem reads_segmentWalk (limit target fuel n current : Nat) :
    Reads (segmentWalk limit target fuel n current) := by
  induction fuel generalizing n current with
  | zero => exact reads_fail _
  | succ fuel ih =>
      unfold segmentWalk
      refine reads_ite (reads_fail _) (reads_bind (reads_readSegment _ _ _) fun _ => ?_)
      exact reads_ite (reads_pure _) (reads_ite (reads_forwardAt _ _ _) (reads_ite (ih _ _) (ih _ _)))

theorem reads_segmentAt (limit generation tail target : Nat) :
    Reads (segmentAt limit generation tail target) :=
  reads_segmentWalk _ _ _ _ _

theorem forward_at (chained : Chained store 160 limit segments) {steps i : Nat} {segment : Segment}
    (found : segments[i + steps]? = some segment) :
    on (forwardAt limit steps (linkTo 160 segments (i + 1))) store =
      (.ok (linkTo 160 segments (i + steps + 1), infoAt 160 segments (i + steps) segment), store) := by
  induction steps generalizing i with
  | zero =>
      rw [forwardAt, on_bind_ok (chained.read_nth found)]
      rfl
  | succ steps ih =>
      have inside := (List.getElem?_eq_some_iff.mp found).1
      have inside : i < segments.length := by omega
      have current : segments[i]? = some segments[i] := List.getElem?_eq_getElem inside
      have moved : linkTo 160 segments (i + 1) + (infoAt 160 segments i segments[i]).headerSize +
          (infoAt 160 segments i segments[i]).body = linkTo 160 segments (i + 1 + 1) := by
        rw [link_succ, link_succ, extent_take_succ current]
        simp only [info_at_header, info_at_body, Segment.size]
        omega
      have shift : i + (steps + 1) = i + 1 + steps := by omega
      rw [forwardAt, on_bind_ok (chained.read_nth current), moved, shift]
      rw [shift] at found
      exact ih found

theorem segment_walk (chained : Chained store 160 limit segments) {target fuel n : Nat}
    {segment : Segment} (found : segments[target]? = some segment) (below : target < n)
    (inside : n ≤ segments.length) (enough : n ≤ fuel) :
    on (segmentWalk limit (target + 1) fuel n (linkTo 160 segments n)) store =
      (.ok (linkTo 160 segments (target + 1), infoAt 160 segments target segment), store) := by
  have count := chained.count_lt
  induction fuel generalizing n with
  | zero => omega
  | succ fuel ih =>
      obtain ⟨m, rfl⟩ : ∃ m, n = m + 1 := ⟨n - 1, by omega⟩
      have bound : m < segments.length := by omega
      have current : segments[m]? = some segments[m] := List.getElem?_eq_getElem bound
      have low := low_bit_pos (n := m + 1) (by omega) (by omega)
      rw [segmentWalk, if_neg (by omega), on_bind_ok (chained.read_nth current)]
      by_cases here : m = target
      · subst here
        rw [found] at current
        cases current
        simp
      · rw [if_neg (by omega)]
        by_cases narrow : (infoAt 160 segments m segments[m]).headerSize = 32
        · have start : dataStart = linkTo 160 segments (0 + 1) := by simp [dataStart]
          rw [if_pos narrow, Nat.add_sub_cancel, start]
          have ran := forward_at chained (show segments[0 + target]? = some segment by simpa using found)
          simpa using ran
        · have wide : segments[m].wide = true := by
            rcases segments[m].header_size_cases with ⟨_, wide⟩ | ⟨size, _⟩
            · exact wide
            · exact absurd size narrow
          have previous : (infoAt 160 segments m segments[m]).previous = linkTo 160 segments m := by
            simp [infoAt, Segment.info, wide]
          have skip : (infoAt 160 segments m segments[m]).skip =
              linkTo 160 segments (m + 1 - lowBit (m + 1)) := by
            simp [infoAt, Segment.info, wide]
          rw [if_neg narrow, previous, skip, Nat.add_sub_cancel]
          split
          · exact ih (by omega) (by omega) (by omega)
          · exact ih (by omega) (by omega) (by omega)

/-- The lookup returns the offset and header of the ordinal it is asked for. -/
theorem segment_at (chained : Chained store 160 limit segments) {target : Nat} {segment : Segment}
    (found : segments[target]? = some segment) :
    on (segmentAt limit segments.length (linkTo 160 segments segments.length) (target + 1)) store =
      (.ok (linkTo 160 segments (target + 1), infoAt 160 segments target segment), store) :=
  segment_walk chained found (List.getElem?_eq_some_iff.mp found).1 (Nat.le_refl _) (Nat.le_refl _)

end Lookup

end Timelite.SegmentLaws
