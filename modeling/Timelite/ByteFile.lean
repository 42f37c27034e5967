import Mathlib.Data.List.Basic
import Mathlib.Tactic

/-!
Byte strings as file contents. `readAt` stops at the end of the file, `writeAt`
zero-fills a gap beyond the end, `resize` cuts or zero-extends. `Holds` says
that a byte string lies at an offset; everything later is phrased through it.
-/
namespace ByteFile

abbrev Bytes := List UInt8

def readAt (file : Bytes) (offset length : Nat) : Bytes := (file.drop offset).take length

def writeAt (file : Bytes) (offset : Nat) (bytes : Bytes) : Bytes :=
  if bytes = [] then file else
    file.take offset ++ List.replicate (offset - file.length) 0 ++ bytes ++
      file.drop (offset + bytes.length)

def resize (file : Bytes) (size : Nat) : Bytes :=
  file.take size ++ List.replicate (size - file.length) 0

def Holds (file : Bytes) (offset : Nat) (bytes : Bytes) : Prop :=
  readAt file offset bytes.length = bytes

-- The two files have the same bytes (or both none) at every offset of [low, high).
def Agree (left right : Bytes) (low high : Nat) : Prop :=
  ∀ i, low ≤ i → i < high → left[i]? = right[i]?

@[simp] theorem read_length (file : Bytes) (offset length : Nat) :
    (readAt file offset length).length = min length (file.length - offset) := by
  simp [readAt]

-- Two reads that meet are one read.
theorem read_append {file : Bytes} {offset : Nat} (first second : Nat) :
    readAt file offset first ++ readAt file (offset + first) second = readAt file offset (first + second) := by
  rw [readAt, readAt, readAt, List.take_add, List.drop_drop]

-- What a read found is what a read of that length finds.
theorem read_again (file : Bytes) (offset length : Nat) :
    readAt file offset (readAt file offset length).length = readAt file offset length := by
  rw [readAt, readAt, List.length_take]
  rcases Nat.le_total length (file.drop offset).length with less | more
  · rw [Nat.min_eq_left less]
  · rw [Nat.min_eq_right more, List.take_length, List.take_of_length_le more]

theorem read_get (file : Bytes) (offset length i : Nat) (inside : i < length) :
    (readAt file offset length)[i]? = file[offset + i]? := by
  simp [readAt, inside]

theorem holds_iff (file : Bytes) (offset : Nat) (bytes : Bytes) :
    Holds file offset bytes ↔ ∀ i, i < bytes.length → file[offset + i]? = bytes[i]? := by
  constructor
  · intro held i inside
    have same : (readAt file offset bytes.length)[i]? = bytes[i]? := by rw [held]
    rwa [read_get file offset bytes.length i inside] at same
  · intro each
    apply List.ext_getElem?
    intro i
    by_cases inside : i < bytes.length
    · rw [read_get file offset bytes.length i inside, each i inside]
    · have short : (readAt file offset bytes.length).length ≤ i := by
        simp only [read_length]
        omega
      rw [List.getElem?_eq_none short, List.getElem?_eq_none (by omega)]

theorem Holds.read {file : Bytes} {offset : Nat} {bytes : Bytes} (held : Holds file offset bytes) :
    readAt file offset bytes.length = bytes := held

@[simp] theorem holds_nil (file : Bytes) (offset : Nat) : Holds file offset [] := by
  simp [Holds, readAt]

theorem Holds.length_le {file : Bytes} {offset : Nat} {bytes : Bytes}
    (held : Holds file offset bytes) (some : bytes ≠ []) :
    offset + bytes.length ≤ file.length := by
  have size := congrArg List.length held
  simp only [read_length] at size
  have positive := List.length_pos_iff.mpr some
  omega

theorem holds_append (file : Bytes) (offset : Nat) (left right : Bytes) :
    Holds file offset (left ++ right) ↔
      Holds file offset left ∧ Holds file (offset + left.length) right := by
  simp only [holds_iff, List.length_append]
  constructor
  · intro each
    constructor
    · intro i inside
      rw [each i (by omega), List.getElem?_append_left inside]
    · intro i inside
      have shifted := each (left.length + i) (by omega)
      rw [List.getElem?_append_right (by omega)] at shifted
      simpa [Nat.add_assoc] using shifted
  · rintro ⟨front, back⟩ i inside
    by_cases first : i < left.length
    · rw [front i first, List.getElem?_append_left first]
    · have shifted := back (i - left.length) (by omega)
      rw [List.getElem?_append_right (by omega), ← shifted]
      congr 1
      omega

theorem Holds.read_part {file : Bytes} {offset : Nat} {bytes : Bytes}
    (held : Holds file offset bytes) (start count : Nat) (inside : start + count ≤ bytes.length) :
    readAt file (offset + start) count = readAt bytes start count := by
  apply List.ext_getElem?
  intro i
  by_cases near : i < count
  · rw [read_get _ _ _ _ near, read_get _ _ _ _ near, Nat.add_assoc,
      (holds_iff file offset bytes).mp held (start + i) (by omega)]
  · rw [List.getElem?_eq_none (by simp only [read_length]; omega),
      List.getElem?_eq_none (by simp only [read_length]; omega)]

-- What lies inside a string that lies in the file lies in the file.
theorem Holds.within {file : Bytes} {offset start : Nat} {bytes part : Bytes}
    (held : Holds file offset bytes) (inner : Holds bytes start part) (some : part ≠ []) :
    Holds file (offset + start) part := by
  have size := congrArg List.length inner
  have positive := List.length_pos_iff.mpr some
  simp only [read_length] at size
  rw [Holds, held.read_part start part.length (by omega), inner]

theorem Holds.agree {left right : Bytes} {offset : Nat} {bytes : Bytes}
    (held : Holds left offset bytes) {low high : Nat} (same : Agree left right low high)
    (above : low ≤ offset) (below : offset + bytes.length ≤ high) : Holds right offset bytes := by
  rw [holds_iff] at *
  intro i inside
  rw [← same (offset + i) (by omega) (by omega)]
  exact held i inside

theorem Holds.unique {file : Bytes} {offset : Nat} {left right : Bytes}
    (a : Holds file offset left) (b : Holds file offset right)
    (size : left.length = right.length) : left = right := by
  rw [← a, ← b, size]

theorem agree_refl (file : Bytes) (low high : Nat) : Agree file file low high :=
  fun _ _ _ => rfl

theorem Agree.symm {left right : Bytes} {low high : Nat} (same : Agree left right low high) :
    Agree right left low high :=
  fun i above below => (same i above below).symm

theorem Agree.trans {first second third : Bytes} {low high : Nat}
    (left : Agree first second low high) (right : Agree second third low high) :
    Agree first third low high :=
  fun i above below => (left i above below).trans (right i above below)

theorem Agree.mono {left right : Bytes} {low high low' high' : Nat}
    (same : Agree left right low high) (above : low ≤ low') (below : high' ≤ high) :
    Agree left right low' high' :=
  fun i a b => same i (by omega) (by omega)

theorem Agree.read {left right : Bytes} {low high : Nat} (same : Agree left right low high)
    (offset length : Nat) (above : low ≤ offset) (below : offset + length ≤ high) :
    readAt left offset length = readAt right offset length := by
  apply List.ext_getElem?
  intro i
  by_cases inside : i < length
  · rw [read_get _ _ _ _ inside, read_get _ _ _ _ inside, same (offset + i) (by omega) (by omega)]
  · rw [List.getElem?_eq_none (by simp only [read_length]; omega),
      List.getElem?_eq_none (by simp only [read_length]; omega)]

@[simp] theorem write_nil (file : Bytes) (offset : Nat) : writeAt file offset [] = file := by
  simp [writeAt]

theorem write_length (file : Bytes) (offset : Nat) (bytes : Bytes) (some : bytes ≠ []) :
    (writeAt file offset bytes).length = max file.length (offset + bytes.length) := by
  simp only [writeAt, some, if_false, List.length_append, List.length_take,
    List.length_replicate, List.length_drop]
  omega

theorem write_grows (file : Bytes) (offset : Nat) (bytes : Bytes) :
    file.length ≤ (writeAt file offset bytes).length := by
  by_cases empty : bytes = []
  · simp [empty]
  · rw [write_length file offset bytes empty]
    omega

theorem write_bound (file : Bytes) (offset : Nat) (bytes : Bytes) :
    (writeAt file offset bytes).length ≤ max file.length (offset + bytes.length) := by
  by_cases empty : bytes = []
  · simp [empty]
  · rw [write_length file offset bytes empty]

-- Inside the written range the file has the new bytes.
theorem write_get_inside (file : Bytes) (offset : Nat) (bytes : Bytes) (i : Nat)
    (above : offset ≤ i) (below : i < offset + bytes.length) :
    (writeAt file offset bytes)[i]? = bytes[i - offset]? := by
  have some : bytes ≠ [] := by
    intro empty
    simp only [empty, List.length_nil] at below
    omega
  have lead : (file.take offset ++ List.replicate (offset - file.length) (0 : UInt8)).length = offset := by
    simp only [List.length_append, List.length_take, List.length_replicate]
    omega
  simp only [writeAt, some, if_false]
  rw [List.append_assoc, List.getElem?_append_right (by omega), lead,
    List.getElem?_append_left (by omega)]

-- A byte of the old file outside the written range is kept.
theorem write_get_outside (file : Bytes) (offset : Nat) (bytes : Bytes) (i : Nat)
    (old : i < file.length) (outside : i < offset ∨ offset + bytes.length ≤ i) :
    (writeAt file offset bytes)[i]? = file[i]? := by
  by_cases empty : bytes = []
  · simp [empty]
  have lead : (file.take offset ++ List.replicate (offset - file.length) (0 : UInt8)).length = offset := by
    simp only [List.length_append, List.length_take, List.length_replicate]
    omega
  simp only [writeAt, empty, if_false]
  rcases outside with before | after
  · rw [List.append_assoc, List.getElem?_append_left (by omega), List.getElem?_append_left
      (by simp only [List.length_take]; omega), List.getElem?_take, if_pos before]
  · rw [List.append_assoc, List.getElem?_append_right (by omega), lead,
      List.getElem?_append_right (by omega), List.getElem?_drop]
    congr 1
    omega

-- A gap beyond the old end reads as zeros.
theorem write_get_gap (file : Bytes) (offset : Nat) (bytes : Bytes) (some : bytes ≠ []) (i : Nat)
    (beyond : file.length ≤ i) (before : i < offset) : (writeAt file offset bytes)[i]? = .some 0 := by
  simp only [writeAt, some, if_false]
  rw [List.append_assoc, List.append_assoc, List.getElem?_append_right (by simp only [List.length_take]; omega),
    List.getElem?_append_left (by simp only [List.length_take, List.length_replicate]; omega),
    List.getElem?_replicate, if_pos (by simp only [List.length_take]; omega)]

theorem write_agree_below (file : Bytes) (offset : Nat) (bytes : Bytes) (high : Nat)
    (old : high ≤ file.length) (below : high ≤ offset) :
    Agree file (writeAt file offset bytes) 0 high :=
  fun i _ near => (write_get_outside file offset bytes i (by omega) (Or.inl (by omega))).symm

theorem write_agree_above (file : Bytes) (offset : Nat) (bytes : Bytes) (low high : Nat)
    (old : high ≤ file.length) (above : offset + bytes.length ≤ low) :
    Agree file (writeAt file offset bytes) low high :=
  fun i far near => (write_get_outside file offset bytes i (by omega) (Or.inr (by omega))).symm

theorem resize_agree (file : Bytes) (size high : Nat) (kept : high ≤ size) (old : high ≤ file.length) :
    Agree file (resize file size) 0 high := by
  intro i _ near
  rw [resize, List.getElem?_append_left (by simp only [List.length_take]; omega), List.getElem?_take,
    if_pos (by omega)]

theorem holds_write (file : Bytes) (offset : Nat) (bytes : Bytes) :
    Holds (writeAt file offset bytes) offset bytes := by
  rw [holds_iff]
  intro i inside
  rw [write_get_inside file offset bytes (offset + i) (by omega) (by omega)]
  congr 1
  omega

theorem Holds.write {file : Bytes} {at_ : Nat} {kept : Bytes} (held : Holds file at_ kept)
    (offset : Nat) (bytes : Bytes)
    (apart : at_ + kept.length ≤ offset ∨ offset + bytes.length ≤ at_) :
    Holds (writeAt file offset bytes) at_ kept := by
  by_cases none : kept = []
  · simp [none]
  have room := held.length_le none
  rw [holds_iff] at held ⊢
  intro i inside
  rw [write_get_outside file offset bytes (at_ + i) (by omega) (by omega)]
  exact held i inside

@[simp] theorem resize_length (file : Bytes) (size : Nat) : (resize file size).length = size := by
  simp only [resize, List.length_append, List.length_take, List.length_replicate]
  omega

theorem resize_get (file : Bytes) (size i : Nat) (near : i < size) (old : i < file.length) :
    (resize file size)[i]? = file[i]? := by
  rw [resize, List.getElem?_append_left (by simp only [List.length_take]; omega),
    List.getElem?_take, if_pos near]

theorem Holds.resize {file : Bytes} {offset : Nat} {bytes : Bytes} (held : Holds file offset bytes)
    (size : Nat) (fits : offset + bytes.length ≤ size) : Holds (resize file size) offset bytes := by
  by_cases none : bytes = []
  · simp [none]
  have room := held.length_le none
  rw [holds_iff] at held ⊢
  intro i inside
  rw [resize_get file size (offset + i) (by omega) (by omega)]
  exact held i inside

-- Two writes that meet are one write.
theorem write_write (file : Bytes) (offset : Nat) (left right : Bytes) (some : left ≠ []) :
    writeAt (writeAt file offset left) (offset + left.length) right = writeAt file offset (left ++ right) := by
  by_cases empty : right = []
  · simp [empty]
  have grown := write_length file offset left some
  apply List.ext_getElem?
  intro i
  by_cases inside : offset ≤ i ∧ i < offset + (left ++ right).length
  · rw [write_get_inside file offset _ i inside.1 inside.2]
    rw [List.length_append] at inside
    by_cases near : i < offset + left.length
    · rw [write_get_outside _ _ _ i (by omega) (.inl near), write_get_inside file offset left i inside.1 near,
        List.getElem?_append_left (by omega)]
    · rw [write_get_inside _ _ _ i (by omega) (by omega), List.getElem?_append_right (by omega)]
      congr 1
      omega
  · rw [List.length_append] at inside
    have whole : left ++ right ≠ [] := by simp [some]
    have length := write_length file offset (left ++ right) whole
    have length' := write_length (writeAt file offset left) (offset + left.length) right empty
    rw [List.length_append] at length
    by_cases old : i < file.length
    · rw [write_get_outside _ _ _ i (by omega) (by omega), write_get_outside file offset left i old (by omega),
        write_get_outside file offset _ i old (by rw [List.length_append]; omega)]
    · by_cases lead : i < offset
      · rw [write_get_outside _ _ _ i (by omega) (.inl (by omega)), write_get_gap file offset left some i (by omega) lead,
          write_get_gap file offset _ whole i (by omega) lead]
      · rw [List.getElem?_eq_none (by omega), List.getElem?_eq_none (by omega)]

-- Zeros that a later write would have filled in anyway.
theorem write_resize (file : Bytes) (size offset : Nat) (bytes : Bytes) (some : bytes ≠ [])
    (grows : file.length ≤ size) (before : size ≤ offset) :
    writeAt (resize file size) offset bytes = writeAt file offset bytes := by
  have length := write_length (resize file size) offset bytes some
  have length' := write_length file offset bytes some
  rw [resize_length] at length
  apply List.ext_getElem?
  intro i
  by_cases inside : offset ≤ i ∧ i < offset + bytes.length
  · rw [write_get_inside _ _ _ i inside.1 inside.2, write_get_inside _ _ _ i inside.1 inside.2]
  · by_cases old : i < file.length
    · rw [write_get_outside _ _ _ i (by rw [resize_length]; omega) (by omega),
        write_get_outside _ _ _ i old (by omega), resize_get file size i (by omega) old]
    · by_cases gap : i < offset
      · rw [write_get_gap file offset bytes some i (by omega) gap]
        by_cases filled : i < size
        · rw [write_get_outside _ _ _ i (by rw [resize_length]; omega) (by omega), resize,
            List.getElem?_append_right (by simp only [List.length_take]; omega), List.getElem?_replicate,
            if_pos (by simp only [List.length_take]; omega)]
        · exact write_get_gap _ offset bytes some i (by rw [resize_length]; omega) gap
      · rw [List.getElem?_eq_none (by omega), List.getElem?_eq_none (by omega)]

theorem resize_append (file rest : Bytes) : resize (file ++ rest) file.length = file := by
  simp [resize]

theorem resize_self (file : Bytes) : resize file file.length = file := by
  simp [resize]

theorem write_at_end (file bytes : Bytes) : writeAt file file.length bytes = file ++ bytes := by
  by_cases empty : bytes = []
  · simp [empty]
  · simp [writeAt, empty]

theorem holds_prefix (file bytes rest : Bytes) (same : file = bytes ++ rest) : Holds file 0 bytes := by
  subst same
  simp [Holds, readAt]

theorem Holds.append_right {file : Bytes} {offset : Nat} {bytes : Bytes}
    (held : Holds file offset bytes) (rest : Bytes) : Holds (file ++ rest) offset bytes := by
  by_cases none : bytes = []
  · simp [none]
  have room := held.length_le none
  rw [holds_iff] at held ⊢
  intro i inside
  rw [List.getElem?_append_left (by omega)]
  exact held i inside

theorem Holds.take {file : Bytes} {offset : Nat} {bytes : Bytes} (held : Holds file offset bytes)
    (count : Nat) : Holds file offset (bytes.take count) := by
  have split := (holds_append file offset (bytes.take count) (bytes.drop count)).mp
    (by simpa using held)
  exact split.1

theorem Holds.drop {file : Bytes} {offset : Nat} {bytes : Bytes} (held : Holds file offset bytes)
    (count : Nat) (inside : count ≤ bytes.length) : Holds file (offset + count) (bytes.drop count) := by
  have split := (holds_append file offset (bytes.take count) (bytes.drop count)).mp
    (by simpa using held)
  simpa [Nat.min_eq_left inside] using split.2

end ByteFile
