import Timelite.Journals
import Timelite.Founding

/-!
The oracle against the library: every dump of a pair that a trial leaves passes the
comparison.
-/
namespace Timelite.Certifying
open ByteFile Program Durable Codec Backend BackendLaws Layout WalLaws Spans Contents Crashes Databases Calls Retaining Cursor
  Expiring Reader BatchApi Opening Appending Checkpointing Creating Atomicity System Refinement Soundness Observing Answering Abstract
  Undisturbed Answering Reopening Founding Dumping Trials Journals

section Tallies
variable {state next : Tally} {line : Command} {content content' : Content}

theorem command_ok : command line = .ok () ↔ 1 ≤ line.value ∧ line.value ≤ 1000000 := by
  unfold command
  split
  · constructor
    · nofun
    · omega
  · split
    · constructor
      · nofun
      · omega
    · constructor
      · omega
      · exact fun _ => rfl

theorem le_newest (records : List (Nat × Nat)) (positive : 0 < cutoff) :
    cutoff ≤ newest records ↔ ∃ found ∈ records, cutoff ≤ found.2 := by
  have general : ∀ (values : List Nat) (least : Nat),
      cutoff ≤ values.foldl max least ↔ cutoff ≤ least ∨ ∃ value ∈ values, cutoff ≤ value := by
    intro values
    induction values with
    | nil => simp
    | cons value rest ih =>
        intro least
        rw [List.foldl_cons, ih]
        simp only [List.mem_cons, exists_eq_or_imp, le_max_iff, or_assoc]
  rw [newest, general]
  simp only [List.mem_map, exists_exists_and_eq_and]
  exact ⟨fun found => found.resolve_left (by omega), .inr⟩

/-- The batch of one record that the workload appends. -/
def item (found : Nat × Nat) : Item := (found.1, [⟨14, .ofNat found.2, .ofNat found.2⟩])

/-- The abstract database that the oracle keeps. -/
def tallied (state : Tally) : Model where
  installed := state.segments.map fun segment => segment.records.map item
  pending := state.pending.map item
  high := state.high
  floor := state.floor

/-- The values are those of lines. -/
def Small (state : Tally) : Prop := ∀ found ∈ state.records, found.2 ≤ 1000000

/-- `apply` by cases of the operation. -/
theorem apply_append (valid : command ⟨.append, value⟩ = .ok ()) (above : state.floor < value) :
    state.apply ⟨.append, value⟩ none = .ok { state with
      high := state.high + 1
      floor := value
      pending := state.pending ++ [(state.high + 1, value)] } := by
  rw [Tally.apply, valid]
  exact if_neg (Nat.not_le.mpr above)

theorem apply_checkpoint (valid : command ⟨.checkpoint, value⟩ = .ok ()) (some : state.pending ≠ []) :
    state.apply ⟨.checkpoint, value⟩ none = .ok { state with segments := state.segments ++ [⟨state.pending, some⟩], pending := [] } := by
  rw [Tally.apply, valid]
  exact dif_pos some

theorem apply_bare (valid : command ⟨.checkpoint, value⟩ = .ok ()) (bare : state.pending = []) :
    state.apply ⟨.checkpoint, value⟩ none = .ok state := by
  rw [Tally.apply, valid]
  exact dif_neg (not_not.mpr bare)

theorem apply_retain (valid : command ⟨.retain, value⟩ = .ok ()) :
    state.apply ⟨.retain, value⟩ none = .ok { state with
      segments := state.segments.filter fun segment => decide (value ≤ newest segment.records) } := by
  rw [Tally.apply, valid]
  rfl

end Tallies

section Applying
variable {state next : Tally} {line : Command} {rest : List Command}

/-- The lines that are still to come fit behind the tally. -/
structure Ahead (state : Tally) (rest : List Command) : Prop where
  small : Small state
  ordered : ordered state.floor rest = .ok ()

theorem ordered_cons (order : ordered state.floor (line :: rest) = .ok ()) :
    command line = .ok () ∧ (line.op = .append → state.floor < line.value) ∧
      ordered (if line.op = .append then line.value else state.floor) rest = .ok () := by
  rw [ordered] at order
  cases valid : command line with
  | error complaint =>
      rw [valid] at order
      cases order
  | ok value =>
      rw [valid] at order
      refine ⟨rfl, ?_⟩
      by_cases append : line.op = .append
      · simp only [bind, Except.bind, if_pos append] at order ⊢
        by_cases low : line.value ≤ state.floor
        · rw [if_pos low] at order
          cases order
        · rw [if_neg low] at order
          exact ⟨fun _ => Nat.lt_of_not_le low, order⟩
      · simp only [bind, Except.bind, if_neg append] at order ⊢
        exact ⟨fun same => absurd same append, order⟩

theorem Ahead.valid (ahead : Ahead state (line :: rest)) : command line = .ok () := (ordered_cons ahead.ordered).1

theorem Ahead.above (ahead : Ahead state (line :: rest)) : line.op = .append → state.floor < line.value :=
  (ordered_cons ahead.ordered).2.1

/-- Every line applies, and the others stay ahead. -/
theorem Ahead.applies (ahead : Ahead state (line :: rest)) :
    ∃ next, state.apply line none = .ok next ∧ Ahead next rest := by
  obtain ⟨valid, above, order⟩ := ordered_cons ahead.ordered
  obtain ⟨op, value⟩ := line
  cases op with
  | append =>
      refine ⟨_, apply_append valid (above rfl), ?_, order⟩
      intro found member
      rw [Tally.records, ← List.append_assoc] at member
      rcases List.mem_append.mp member with old | new
      · exact ahead.small found old
      · rw [List.mem_singleton.mp new]
        exact (command_ok.mp valid).2
  | checkpoint =>
      by_cases bare : state.pending = []
      · exact ⟨state, apply_bare valid bare, ahead.small, order⟩
      · refine ⟨_, apply_checkpoint valid bare, ?_, order⟩
        intro found member
        rw [Tally.records, List.flatMap_append, List.append_nil] at member
        rcases List.mem_append.mp member with old | new
        · exact ahead.small found (List.mem_append_left _ old)
        · exact ahead.small found (List.mem_append_right _ (by simpa using new))
  | retain =>
      refine ⟨_, apply_retain valid, ?_, order⟩
      intro found member
      rcases List.mem_append.mp member with kept | pending
      · obtain ⟨segment, inside, found'⟩ := List.mem_flatMap.mp kept
        exact ahead.small found (List.mem_append_left _
          (List.mem_flatMap.mpr ⟨segment, (List.mem_filter.mp inside).1, found'⟩))
      · exact ahead.small found (List.mem_append_right _ pending)

end Applying

section Sessions
variable {host : Host} {identity : Bytes} {state next : Tally} {line : Command} {rest : List Command}

/-- The handle is live, and what the pair holds is the tally. -/
def Shows (host : Host) (identity : Bytes) (state : Tally) : Prop :=
  ∃ v, Holding host identity v ∧ modelOf v.content = tallied state

/-- The pair holds one of the tallies, whatever a crash leaves of it. -/
def Among (states : List Tally) (content : Content) : Prop :=
  Honest content ∧ ∃ state ∈ states, modelOf content = tallied state

/-- What the target can have left: a pair that holds one of the tallies whatever a crash
leaves of it, or one whose creation was cut short. -/
inductive Left (states : List Tally) (identity : Bytes) (store : Store) : Prop where
  | whole (safe : Safe (Leaves (Among states) identity) store)
  | begun (blank : .empty ∈ states) (begun : Begun identity store)

/-- The oracle has a candidate for what the target has left. -/
structure Covered (identity : Bytes) (journal : List Entry) (states : List Tally) (store : Store) : Prop where
  computed : candidates journal = .ok states
  small : ∀ state ∈ states, Small state
  wide : identity.length = 16
  left : Left states identity store

/-- What holds between two events of a session: the journal accounts for the pair. -/
inductive Accounted (identity : Bytes) : Session → Prop where
  | opening {journal : List Entry} {store : Store} {link : Link} (waiting : link.unread = some creating)
      (plan : ∀ rest, link = .opening rest → Ahead .empty rest) (books : scan journal = .ok ⟨.empty, none, true⟩)
      (fresh : store.database = none ∧ store.wal = none) (same : store.entropy = identity) (wide : identity.length = 16) :
      Accounted identity ⟨journal, ⟨store, batchesInit⟩, link⟩
  | idle {journal : List Entry} {host : Host} {state : Tally} {rest : List Command}
      (books : scan journal = .ok ⟨state, none, true⟩) (ahead : Ahead state rest) (shows : Shows host identity state) :
      Accounted identity ⟨journal, host, .idle rest⟩
  | sent {journal : List Entry} {host : Host} {state : Tally} {line : Command} {rest : List Command}
      (books : scan journal = .ok ⟨state, some line, true⟩) (ahead : Ahead state (line :: rest))
      (shows : Shows host identity state) : Accounted identity ⟨journal, host, .sent line rest⟩
  | answered {journal : List Entry} {host : Host} {state next : Tally} {line : Command} {rest : List Command}
      (books : scan journal = .ok ⟨state, some line, true⟩) (ahead : Ahead state (line :: rest))
      (applied : state.apply line none = .ok next) (shows : Shows host identity next) :
      Accounted identity ⟨journal, host, .answered line (if line.op = .append then state.high + 1 else 0) rest⟩
  | unread {journal : List Entry} {host : Host} {state : Tally} {line : Command} {rest : List Command}
      (books : scan journal = .ok ⟨state, some line, true⟩) (ahead : Ahead state (line :: rest))
      (shows : Shows host identity state) : Accounted identity ⟨journal, host, .over (some line.act)⟩
  | settled {journal : List Entry} {host : Host} {states : List Tally} {link : Link} {ledger : Ledger}
      (done : link = .failed ∨ link = .over none) (books : scan journal = .ok ledger)
      (covered : Covered identity journal states host.store) : Accounted identity ⟨journal, host, link⟩

end Sessions

section Dumps
variable {host : Host} {identity : Bytes} {v : View} {database wal : String}

theorem dump_all {items : List Item} {fuel : Nat} (steady : Steady host identity v)
    (left : (due v.content v.position).map shown = items) (enough : items.length < fuel) :
    ∃ last v', dumpLoop none fuel host = some (.endOfData, printed items, last) ∧ Steady last identity v' := by
  have yields := steady_yields steady
  rw [left] at yields
  induction items generalizing host v fuel with
  | nil =>
      obtain ⟨fuel, rfl⟩ : ∃ k, fuel = k + 1 := ⟨fuel - 1, by omega⟩
      obtain ⟨v', answers, after, _⟩ := @steady_call identity v (.next maxRecords batchScratch) host steady (by simp)
      refine ⟨_, v', ?_, after⟩
      rw [dumpLoop, reading, show host.call (.next maxRecords batchScratch) =
        (.error .endOfData, (host.call (.next maxRecords batchScratch)).2) from
          Prod.ext (yields maxRecords batchScratch (Nat.le_refl _)) rfl]
      rfl
  | cons item later ih =>
      obtain ⟨fuel, rfl⟩ : ∃ k, fuel = k + 1 := ⟨fuel - 1, by omega⟩
      rw [List.length_cons] at enough
      obtain ⟨v', answers, after, _⟩ := @steady_call identity v (.next maxRecords batchScratch) host steady (by simp)
      obtain ⟨result, more⟩ := yields maxRecords batchScratch (Nat.le_refl _) (Nat.le_refl _)
      have left' : (due v'.content v'.position).map shown = later := yields_unique (steady_yields after) more
      obtain ⟨last, v'', ran, ended⟩ := @ih _ v' fuel after left' (by omega) more
      refine ⟨last, v'', ?_, ended⟩
      rw [dumpLoop, reading, show host.call (.next maxRecords batchScratch) =
        (.ok (.batch item.1 item.2), (host.call (.next maxRecords batchScratch)).2) from Prod.ext result rfl]
      simp only [ran, Option.map_some]
      rfl

/-- The lines of a dump that succeeds. -/
def dumpLines (database wal : String) (status : Status) (items : List Item) : List Line :=
  [.mode, .readOnly, .note, .database database, .wal wal] ++ [.openResult] ++ statusLines status ++ printed items

/-- Whatever open finds in the pair, it is a content of the family. -/
def Legible (φ : Content → Prop) (store : Store) : Prop :=
  ∀ opened, Host.call ⟨store, batchesInit⟩ (.openPair .openExisting batchScratch) = (.ok .none, opened) →
    ∃ identity v, Steady opened identity v ∧ φ v.content ∧ v.position = 1

/-- On a pair that a crash has left, the tool reports that open failed, or dumps
a content that the pair may hold. -/
theorem inspected {φ : Content → Prop} {store : Store} (legible : Legible φ store) :
    ∃ enough, ∀ fuel, enough ≤ fuel → ∃ code lines last,
      inspectStatus database wal true none false fuel store = some (code, lines, last) ∧
        (Line.openResult ∈ lines → code = 0 ∧ ∃ content, φ content ∧ lines = dumpLines database wal (statusOf content) (listed content)) := by
  obtain ⟨result, db, after, ran⟩ : ∃ result db after,
      Prog.run device (batchesOpen batchesInit .openExisting batchScratch) store = ((result, db), after) := ⟨_, _, _, rfl⟩
  have inner : Prog.run device (Act.perform batchesInit (.openPair .openExisting batchScratch)) store =
      ((result.map fun _ => .none, db), after) := run_answering ran
  have call : Host.call ⟨store, batchesInit⟩ (.openPair .openExisting batchScratch) =
      (result.map fun _ => .none, ⟨after, db⟩) := by
    rw [Host.call, inner]
  cases result with
  | error error =>
      refine ⟨0, fun fuel _ => ?_⟩
      rw [inspectStatus, call]
      exact ⟨_, _, _, rfl, fun opened => absurd opened (by simp)⟩
  | ok done =>
      obtain ⟨identity, v, steady, holds, start⟩ := legible _ call
      have answered := steady_status steady
      refine ⟨(listed v.content).length + 1, fun fuel large => ?_⟩
      have whole : (due v.content v.position).map shown = listed v.content := by
        rw [start, due_one]
        rfl
      obtain ⟨last, v', ran, ended⟩ := dump_all steady whole (Nat.lt_of_lt_of_le (Nat.lt_succ_self _) large)
      refine ⟨0, dumpLines database wal (statusOf v.content) (listed v.content), ⟨last.store, batchesInit⟩, ?_,
        fun _ => ⟨rfl, v.content, holds, rfl⟩⟩
      rw [inspectStatus, call]
      simp only [Except.map, answered, if_true, dumpRecords, ran, Option.map_some, Option.bind_eq_bind, Option.bind_some, closing,
        serving_close ended.serving, List.append_nil]
      rfl

end Dumps

section Oracle

/-- A machine without files. -/
def blank : Store := ⟨none, none, List.replicate 16 7⟩

/-- The power fails when both headers are written and nothing is synced. -/
def cutStore : Store := (creating.perform batchesInit).after device 7 blank

/-- 100 of the 160 bytes of the database are left. -/
def rebooted : Host := ⟨booted cutStore ((createdDatabase blank.entropy).take 100) (cutStore.content .wal), batchesInit⟩

def reopened : Host := (rebooted.call (.openPair .openExisting batchScratch)).2

end Oracle

end Timelite.Certifying
