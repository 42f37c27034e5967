import Timelite.ByteFile

/-!
A file under volatile caching. `durable` is the image of the last sync and
`pending` the later updates, oldest first; readers see `content`. A crash keeps
an in-order prefix of the pending updates, the last one possibly cut to a byte
prefix that the `Tearing` admits.
-/
namespace Durable
open ByteFile

inductive Update where
  | write (offset : Nat) (bytes : Bytes)
  | truncate (size : Nat)
  deriving DecidableEq, Repr

def Update.apply (file : Bytes) : Update → Bytes
  | .write offset bytes => writeAt file offset bytes
  | .truncate size => resize file size

structure Disk where
  durable : Bytes
  pending : List Update
  deriving DecidableEq, Repr

def settled (image : Bytes) : Disk := ⟨image, []⟩

def Disk.content (disk : Disk) : Bytes := disk.pending.foldl Update.apply disk.durable

def Disk.update (disk : Disk) (change : Update) : Disk :=
  { disk with pending := disk.pending ++ [change] }

def Disk.sync (disk : Disk) : Disk := settled disk.content

/-- Which cuts of a write a crash can leave. A cut of a cut is a cut. -/
structure Tearing where
  allows : Bytes → Nat → Bytes → Nat → Prop
  nested : ∀ {file offset bytes first second}, allows file offset bytes first →
    allows file offset (bytes.take first) second → allows file offset bytes (min second first)

def anywhere : Tearing := ⟨fun _ _ _ _ => True, fun _ _ => trivial⟩

/-- The images a crash can leave. -/
inductive Survives (tearing : Tearing) (disk : Disk) : Bytes → Prop where
  | whole (kept lost : List Update) (split : disk.pending = kept ++ lost) :
      Survives tearing disk (kept.foldl Update.apply disk.durable)
  | torn (kept lost : List Update) (offset : Nat) (bytes : Bytes) (count : Nat)
      (split : disk.pending = kept ++ Update.write offset bytes :: lost)
      (cut : tearing.allows (kept.foldl Update.apply disk.durable) offset bytes count) :
      Survives tearing disk (writeAt (kept.foldl Update.apply disk.durable) offset (bytes.take count))

@[simp] theorem content_settled (image : Bytes) : (settled image).content = image := rfl

@[simp] theorem update_content (disk : Disk) (change : Update) :
    (disk.update change).content = change.apply disk.content := by
  simp [Disk.update, Disk.content]

@[simp] theorem sync_content (disk : Disk) : disk.sync.content = disk.content := rfl

@[simp] theorem sync_settled (image : Bytes) : (settled image).sync = settled image := rfl

variable {tearing : Tearing}

theorem survives_content (disk : Disk) : Survives tearing disk disk.content :=
  .whole disk.pending [] (by simp)

theorem survives_settled {image kept : Bytes} (survives : Survives tearing (settled image) kept) :
    kept = image := by
  cases survives with
  | whole front back split =>
      have none : front = [] := (List.append_eq_nil_iff.mp split.symm).1
      rw [none]
      rfl
  | torn front back offset bytes count split => simp [settled] at split

-- One more update adds its own effect and its cuts to what can survive.
theorem survives_update {disk : Disk} {change : Update} {image : Bytes}
    (survives : Survives tearing (disk.update change) image) :
    Survives tearing disk image ∨ image = change.apply disk.content ∨
      ∃ offset bytes count, change = .write offset bytes ∧
        tearing.allows disk.content offset bytes count ∧
        image = writeAt disk.content offset (bytes.take count) := by
  cases survives with
  | whole kept lost split =>
      rcases List.eq_nil_or_concat lost with none | ⟨front, final, same⟩
      · right; left
        subst none
        simp only [List.append_nil, Disk.update] at split
        rw [← split]
        exact update_content disk change
      · left
        subst same
        simp only [Disk.update, List.concat_eq_append, ← List.append_assoc] at split
        exact .whole kept front (List.append_inj' split rfl).1
  | torn kept lost offset bytes count split cut =>
      rcases List.eq_nil_or_concat lost with none | ⟨front, final, same⟩
      · right; right
        subst none
        have parts := List.append_inj' split rfl
        have whole : kept.foldl Update.apply disk.durable = disk.content := by
          rw [Disk.content, parts.1]
        have write := (List.cons.inj parts.2).1
        simp only [Disk.update] at cut ⊢
        rw [whole] at cut ⊢
        exact ⟨offset, bytes, count, write, cut, rfl⟩
      · left
        subst same
        simp only [Disk.update, List.concat_eq_append, ← List.cons_append, ← List.append_assoc] at split
        exact .torn kept front offset bytes count (List.append_inj' split rfl).1 cut

/-- A property of every image a crash can leave, the current content included. -/
def Always (tearing : Tearing) (holds : Bytes → Prop) (disk : Disk) : Prop :=
  ∀ image, Survives tearing disk image → holds image

variable {holds : Bytes → Prop}

theorem Always.content {disk : Disk} (always : Always tearing holds disk) : holds disk.content :=
  always _ (survives_content disk)

theorem always_settled {image : Bytes} (kept : holds image) : Always tearing holds (settled image) := by
  intro other survives
  rw [survives_settled survives]
  exact kept

theorem Always.sync {disk : Disk} (always : Always tearing holds disk) :
    Always tearing holds disk.sync :=
  always_settled always.content

theorem Always.truncate {disk : Disk} (always : Always tearing holds disk) {size : Nat}
    (cut : holds (resize disk.content size)) :
    Always tearing holds (disk.update (.truncate size)) := by
  intro image survives
  rcases survives_update survives with old | same | ⟨offset, bytes, count, write, _⟩
  · exact always image old
  · rw [same]; exact cut
  · cases write

theorem Always.write {disk : Disk} (always : Always tearing holds disk) {offset : Nat} {bytes : Bytes}
    (whole : holds (writeAt disk.content offset bytes))
    (torn : ∀ count, tearing.allows disk.content offset bytes count →
      holds (writeAt disk.content offset (bytes.take count))) :
    Always tearing holds (disk.update (.write offset bytes)) := by
  intro image survives
  rcases survives_update survives with old | same | ⟨at_, written, count, change, cut, same⟩
  · exact always image old
  · rw [same]; exact whole
  · cases change
    rw [same]; exact torn count cut

-- A write that failed after some of its bytes, and is cut again by the crash.
theorem Always.write_part {disk : Disk} (always : Always tearing holds disk) {offset first : Nat}
    {bytes : Bytes} (part : tearing.allows disk.content offset bytes first)
    (torn : ∀ count, tearing.allows disk.content offset bytes count →
      holds (writeAt disk.content offset (bytes.take count))) :
    Always tearing holds (disk.update (.write offset (bytes.take first))) := by
  refine always.write (torn first part) (fun second cut => ?_)
  rw [List.take_take]
  exact torn _ (tearing.nested part cut)

/-- A property that writes inside [low, high) cannot break. -/
def Tolerates (holds : Bytes → Prop) (low high : Nat) : Prop :=
  ∀ file offset bytes, holds file → low ≤ offset → offset + bytes.length ≤ high →
    holds (writeAt file offset bytes)

end Durable
