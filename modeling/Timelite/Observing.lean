import Timelite.Soundness
import Timelite.Answering

/-!
What a caller sees of a pair without disturbance: the batches a reader returns
from the cursor to END, and the outcome of the next open after a restart or a
crash.
-/
namespace Timelite.Observing
open ByteFile Program Durable Codec CodecLaws Backend BackendLaws Layout HeaderWalk WalLaws Contents Images Crashes
  Databases Calls Retaining Appending Checkpointing Cursor Expiring Reader BatchApi Opening Atomicity System Refinement Soundness
  Answering

/-- A batch with its sequence number, as next returns it. -/
abbrev Item := Nat × List Record

def shown (item : Nat × Batch) : Item := (item.1, item.2.records)

/-- The time of the last record of a batch. -/
def itemTime (item : Item) : Nat := (item.2.getLast?.map fun record => record.timestamp.toNat).getD 0

theorem item_time (item : Nat × Batch) : itemTime (shown item) = Batch.finalTime item.2 := by
  simp only [itemTime, shown, Batch.finalTime, List.getLast?_eq_some_getLast item.2.occupied, Option.map_some, Option.getD_some]

/-- The batches of a content in the order of their sequence numbers. -/
def listed (content : Content) : List Item := content.exposed.map shown

theorem listed_append {content : Content} {batch : Batch} {more : content.high < uint64Max}
    {space : content.walEnd + batch.size ≤ walCapacity} :
    listed (content.append batch more space) = listed content ++ [(content.high + 1, batch.records)] := by
  simp only [listed, exposed_append, List.map_append, List.map_cons, List.map_nil, shown]

theorem listed_checkpoint {content : Content} {some : content.pending ≠ []}
    {space : content.dataEnd + (64 + framesSize content.pending) ≤ databaseCapacity} :
    listed (content.checkpoint some space) = listed content := by
  rw [listed, exposed_checkpoint, listed]

theorem status_checkpoint (content : Content) (some : content.pending ≠ [])
    (space : content.dataEnd + (64 + framesSize content.pending) ≤ databaseCapacity) :
    statusOf (content.checkpoint some space) = { statusOf content with
      installedBatches := (statusOf content).committedBatches
      pendingBatches := 0
      installedSegments := (statusOf content).installedSegments + 1
      walBytes := 32
      installedBytes := (statusOf content).installedBytes + 64 + ((statusOf content).walBytes - 32) } := by
  have size := content.pending_segment_size some
  have counted : (content.pendingSegment some).batches.length = content.pending.length := rfl
  simp only [statusOf, Content.checkpoint, Layout.live_append, live_cons, live_nil, extent_append, extent_cons,
    extent_nil, size, counted, List.length_append, List.length_singleton, List.length_nil, Content.walEnd,
    Content.floor, frames_size_nil, last_time_nil, Status.mk.injEq, and_true, true_and]
  omega

/-- Reading on to END returns exactly these batches. -/
def Yields : Host → List Item → Prop
  | host, [] => ∀ capacity scratchSize, batchScratch ≤ scratchSize →
      (host.call (.next capacity scratchSize)).1 = .error .endOfData
  | host, item :: later => ∀ capacity scratchSize, maxRecords ≤ capacity → batchScratch ≤ scratchSize →
      (host.call (.next capacity scratchSize)).1 = .ok (.batch item.1 item.2) ∧
        Yields (host.call (.next capacity scratchSize)).2 later

/-- Rewind and reading to END return exactly these batches. -/
def Exposes (host : Host) (items : List Item) : Prop :=
  (host.call .rewind).1 = .ok .none ∧ Yields (host.call .rewind).2 items

/-- The host on which the pair is opened next: the process was replaced, or a crash
kept these images. -/
inductive Resumed (store : Store) : Host → Prop where
  | restarted : Resumed store ⟨store, batchesInit⟩
  | crashed {d w : Bytes} (survives : Surviving store d w) : Resumed store ⟨booted store d w, batchesInit⟩

/-- Every undisturbed open of an existing pair succeeds, and what it opens satisfies `shape`. -/
def Reopens (host : Host) (shape : Host → Prop) : Prop :=
  ∀ mode scratchSize, mode ≠ .createNew → batchScratch ≤ scratchSize →
    (host.call (.openPair mode scratchSize)).1 = .ok .none ∧ shape (host.call (.openPair mode scratchSize)).2

/-- Every undisturbed open of an existing pair fails so and changes nothing. -/
def Rejects (host : Host) (error : Error) : Prop :=
  ∀ mode scratchSize, mode ≠ .createNew → batchScratch ≤ scratchSize →
    host.call (.openPair mode scratchSize) = (.error error, host)

theorem Reopens.mono {host : Host} {shape shape' : Host → Prop} (reopens : Reopens host shape)
    (implied : ∀ opened, shape opened → shape' opened) : Reopens host shape' := fun mode scratchSize old large =>
  ⟨(reopens mode scratchSize old large).1, implied _ (reopens mode scratchSize old large).2⟩

/-- The handle is live and the pair holds an honest content. -/
structure Holding (host : Host) (identity : Bytes) (v : View) : Prop where
  live : Live host.store host.db identity v.content v.m v.position
  honest : Honest v.content

section Calls
variable {host : Host} {identity : Bytes} {v : View} {act : Act}

/-- An undisturbed call answers as the abstract database does. -/
theorem holding_call (holding : Holding host identity v) (other : act ≠ .close) :
    ∃ v', Answers act v (host.call act).1 v' ∧ Holding (host.call act).2 identity v' := by
  obtain ⟨result, v', db', after, performs, answers, live⟩ :=
    @live_performs Honest host.store host.db identity v act holding.live holding.honest holding.honest
      (fun content' effect => honest_effect holding.honest effect) other
  have ran : host.call act = (result, ⟨after, db'⟩) := by
    rw [Host.call, performs.1]
  rw [ran]
  refine ⟨v', answers, live, ?_⟩
  rcases answers_effect answers with same | effect
  · rw [same]
    exact holding.honest
  · exact honest_effect holding.honest effect

theorem steady_status (steady : Steady host identity v) :
    host.call .getStatus = (.ok (.status (statusOf v.content)), host) := by
  have known := status_of steady.serving.tracks steady.serving.batch_ready
  have request : Act.perform host.db .getStatus = .done (.ok (.status (statusOf v.content)), host.db) := by
    rw [Act.perform, known]
    rfl
  rw [Host.call, request]
  rfl

-- Induction on what is due at the cursor.
theorem steady_yields (steady : Steady host identity v) :
    Yields host ((due v.content v.position).map shown) := by
  generalize ahead : due v.content v.position = rest
  induction rest generalizing host v with
  | nil =>
      intro capacity scratchSize large
      obtain ⟨v', answers, _⟩ := @steady_call identity v (.next capacity scratchSize) host steady (by simp)
      generalize (host.call (.next capacity scratchSize)).1 = result at answers ⊢
      cases answers with
      | nextSmall capacity scratchSize v small => omega
      | nextEnd capacity scratchSize v large none => rfl
      | nextShort capacity scratchSize v sequence batch later large first short => rw [ahead] at first; cases first
      | next capacity scratchSize v sequence batch later large first fits => rw [ahead] at first; cases first
  | cons item later ih =>
      intro capacity scratchSize room large
      obtain ⟨v', answers, held, _⟩ := @steady_call identity v (.next capacity scratchSize) host steady (by simp)
      generalize (host.call (.next capacity scratchSize)).1 = result at answers ⊢
      cases answers with
      | nextSmall capacity scratchSize v small => omega
      | nextEnd capacity scratchSize v large none => rw [ahead] at none; cases none
      | nextShort capacity scratchSize v sequence batch later large first short =>
          have few := batch.few
          omega
      | next capacity scratchSize v sequence batch later' large first fits =>
          have same := first.symm.trans ahead
          cases same
          exact ⟨rfl, ih held (due_next first)⟩

theorem steady_exposes (steady : Steady host identity v) : Exposes host (listed v.content) := by
  obtain ⟨v', answers, held, _⟩ := @steady_call identity v .rewind host steady (by simp)
  generalize ran : (host.call .rewind).1 = result at answers
  cases answers with
  | rewind v =>
      refine ⟨ran, ?_⟩
      have yields := steady_yields held
      simp only [due_one] at yields
      exact yields

theorem Holding.steady (holding : Holding host identity v) : Steady host identity v :=
  ⟨holding.live.settled.serving, holding.honest, holding.live.delivers⟩

theorem holding_status (holding : Holding host identity v) :
    host.call .getStatus = (.ok (.status (statusOf v.content)), host) := steady_status holding.steady

theorem holding_exposes (holding : Holding host identity v) : Exposes host (listed v.content) :=
  steady_exposes holding.steady

theorem opened_exposes {content : Content} {m : Manifests} (holding : Holding host identity ⟨content, m, 1⟩) :
    Exposes host (listed content) := holding_exposes holding

theorem listed_length (content : Content) :
    (listed content).length = live content.segments + content.pending.length := by
  have installed : (content.segments.flatMap Segment.numbered).length = live content.segments := by
    induction content.segments with
    | nil => rfl
    | cons segment rest ih =>
        rw [List.flatMap_cons, List.length_append, live_cons, ih]
        simp only [Segment.numbered, number_length]
  rw [listed, List.length_map, Content.exposed, List.length_append, installed, Content.queued, number_length]

theorem yields_unique {host : Host} {items items' : List Item} (yields : Yields host items)
    (yields' : Yields host items') : items = items' := by
  induction items generalizing host items' with
  | nil =>
      cases items' with
      | nil => rfl
      | cons item later =>
          have here := (yields' maxRecords batchScratch (Nat.le_refl _) (Nat.le_refl _)).1
          rw [yields maxRecords batchScratch (Nat.le_refl _)] at here
          cases here
  | cons item later ih =>
      have here := yields maxRecords batchScratch (Nat.le_refl _) (Nat.le_refl _)
      cases items' with
      | nil =>
          have ended := yields' maxRecords batchScratch (Nat.le_refl _)
          rw [here.1] at ended
          cases ended
      | cons item' later' =>
          have here' := yields' maxRecords batchScratch (Nat.le_refl _) (Nat.le_refl _)
          have first := here.1.symm.trans here'.1
          simp only [Except.ok.injEq, Answer.batch.injEq] at first
          rw [Prod.ext first.1 first.2, ih here.2 here'.2]

theorem exposes_unique {items items' : List Item} (exposes : Exposes host items) (exposes' : Exposes host items') :
    items = items' := yields_unique exposes.2 exposes'.2

end Calls

section Resuming
variable {P : Bytes → Bytes → Prop} {store : Store} {host : Host} {identity : Bytes} {content : Content}

theorem resumed_safe (safe : Safe P store) (resumed : Resumed store host) :
    Safe P host.store ∧ host.db = batchesInit := by
  cases resumed with
  | restarted => exact ⟨safe, rfl⟩
  | crashed survives => exact ⟨booted_safe safe survives, rfl⟩

/-- The next open recovers the content that both files hold. -/
theorem reopens_holding (safe : Safe P host.store) (fresh : host.db = batchesInit) (wide : identity.length = 16)
    (recovers : Recovers True identity content (host.store.content .database) (host.store.content .wal))
    (honest : Honest content) :
    Reopens host fun opened => ∃ m, Holding opened identity ⟨content, m, 1⟩ := by
  intro mode scratchSize old large
  obtain ⟨handle, after, m, triple, live, _⟩ := @open_recovers (fun _ _ => True) host.store host.db identity content mode
    scratchSize (safe.mono fun _ _ _ => trivial) wide recovers (fun _ _ _ _ => trivial) (by rw [fresh]; exact ⟨rfl, rfl⟩)
    large old
  have ran : host.call (.openPair mode scratchSize) = (.ok .none, ⟨after, handle⟩) := by
    rw [Host.call]
    have inner : Prog.run device (Act.perform host.db (.openPair mode scratchSize)) host.store =
        ((.ok .none, handle), after) := run_answering triple.run_eq
    rw [inner]
  rw [ran]
  exact ⟨rfl, m, live, honest⟩

theorem rejects_stuck {tail : Bytes} (safe : Safe P host.store) (fresh : host.db = batchesInit)
    (wide : identity.length = 16) (held : Held identity content (host.store.content .database))
    (logged : Logged (host.store.content .wal) identity content tail) (stuck : ¬ Readable tail) :
    Rejects host .invalidDatabase := by
  intro mode scratchSize old large
  have closed : host.db.database = false ∧ host.db.wal = false := by
    rw [fresh]
    exact ⟨rfl, rfl⟩
  have triple := open_stuck safe wide held logged stuck closed large old
  have inner : Prog.run device (Act.perform host.db (.openPair mode scratchSize)) host.store =
      ((.error .invalidDatabase, host.db), host.store) := run_answering triple.run_eq
  rw [Host.call, inner]

end Resuming

end Timelite.Observing
