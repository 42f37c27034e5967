import Timelite.Certifying

/-!
What the oracle certifies, for any journal and any dump: a comparison that passes has
lost no acknowledged record that no retention can have removed, and shows nothing else.
-/
namespace Timelite.Attesting
open ByteFile Program Durable Codec Backend BatchApi System Observing Undisturbed Dumping Trials Journals Certifying

section Applying
variable {state next : Tally} {line : Command} {number : Option Nat} {asked : Command → Prop} {told : Nat × Nat → Prop}

/-- The records of a tally against the operations asked for and those told as done. -/
structure Faithful (asked : Command → Prop) (told : Nat × Nat → Prop) (state : Tally) : Prop where
  kept : ∀ found, told found → found ∈ state.records
  origin : ∀ found ∈ state.records, asked ⟨.append, found.2⟩
  rising : state.records.Pairwise fun first second => first.1 < second.1 ∧ first.2 < second.2
  bounded : ∀ found ∈ state.records, found.1 ≤ state.high ∧ found.2 ≤ state.floor

theorem Faithful.mono {asked' : Command → Prop} {told' : Nat × Nat → Prop} (faithful : Faithful asked told state)
    (more : ∀ line, asked line → asked' line) (fewer : ∀ found, told' found → told found) : Faithful asked' told' state :=
  ⟨fun found given => faithful.kept found (fewer found given), fun found member => more _ (faithful.origin found member),
    faithful.rising, faithful.bounded⟩

/-- An operation that was asked for keeps the tally faithful, if a retention removes nothing that was told. -/
theorem Faithful.applies (faithful : Faithful asked told state) (given : asked line) (applied : Applied state line number next)
    (spares : line.op = .retain → ∀ segment ∈ state.segments, newest segment.records < line.value →
      ∀ found ∈ segment.records, ¬ told found) :
    Faithful asked (fun found => told found ∨ line.op = .append ∧ number = some found.1 ∧ found.2 = line.value) next := by
  cases applied with
  | @append value number above numbered =>
      have records : ∀ found, found ∈ state.segments.flatMap Chunk.records ++ (state.pending ++ [(state.high + 1, value)]) ↔
          found ∈ state.records ∨ found = (state.high + 1, value) := fun found => by
        rw [← List.append_assoc, List.mem_append, List.mem_singleton]
        rfl
      refine ⟨fun found told => (records found).mpr ?_, fun found member => ?_, ?_, fun found member => ?_⟩
      · rcases told with old | ⟨_, same, equal⟩
        · exact .inl (faithful.kept found old)
        · exact .inr (Prod.ext (numbered _ same) equal)
      · rcases (records found).mp member with old | rfl
        · exact faithful.origin found old
        · exact given
      · change (state.segments.flatMap Chunk.records ++ (state.pending ++ [(state.high + 1, value)])).Pairwise _
        rw [← List.append_assoc]
        refine List.pairwise_append.mpr ⟨faithful.rising, List.pairwise_singleton _ _, fun first old second new => ?_⟩
        obtain ⟨below, early⟩ := faithful.bounded first old
        rw [List.mem_singleton.mp new]
        exact ⟨Nat.lt_succ_of_le below, Nat.lt_of_le_of_lt early above⟩
      · rcases (records found).mp member with old | rfl
        · obtain ⟨below, early⟩ := faithful.bounded found old
          exact ⟨Nat.le_succ_of_le below, Nat.le_of_lt (Nat.lt_of_le_of_lt early above)⟩
        · exact ⟨Nat.le_refl _, Nat.le_refl _⟩
  | bare => exact faithful.mono (fun _ => id) fun found told => told.resolve_right fun done => by cases done.1
  | @checkpoint value number some =>
      have records : ({ state with segments := state.segments ++ [⟨state.pending, some⟩], pending := [] } : Tally).records =
          state.records := by
        simp only [Tally.records, List.flatMap_append, List.flatMap_cons, List.flatMap_nil, List.append_nil]
      refine ⟨fun found told => ?_, fun found member => ?_, ?_, fun found member => ?_⟩
      · rw [records]
        exact faithful.kept found (told.resolve_right fun done => by cases done.1)
      · rw [records] at member
        exact faithful.origin found member
      · rw [records]
        exact faithful.rising
      · rw [records] at member
        exact faithful.bounded found member
  | @retain value number =>
      have part : List.Sublist ((state.segments.filter fun segment => decide (value ≤ newest segment.records)).flatMap Chunk.records ++
          state.pending) state.records := (List.filter_sublist.flatMap Chunk.records).append_right _
      refine ⟨fun found told => ?_, fun found member => faithful.origin found (part.subset member), faithful.rising.sublist part,
        fun found member => faithful.bounded found (part.subset member)⟩
      have old := told.resolve_right fun done => by cases done.1
      rcases List.mem_append.mp (faithful.kept found old) with inside | pending
      · obtain ⟨segment, member, inside⟩ := List.mem_flatMap.mp inside
        refine List.mem_append_left _ (List.mem_flatMap.mpr ⟨segment, List.mem_filter.mpr ⟨member, decide_eq_true ?_⟩, inside⟩)
        exact Nat.le_of_not_lt fun early => spares rfl segment member early found inside old
      · exact List.mem_append_right _ pending

end Applying

section Journals
variable {journal : List Entry} {ledger next : Ledger} {entry : Entry} {found : Nat × Nat} {state : Tally}

def Acknowledged (journal : List Entry) (found : Nat × Nat) : Prop := .ack ⟨.append, found.2⟩ found.1 ∈ journal

/-- A retention that was asked for can have removed the record: it came behind a checkpoint of
the record, and everything appended before that checkpoint lies below its cutoff. -/
def Removable (journal : List Entry) (found : Nat × Nat) : Prop :=
  ∃ before value number between cutoff after,
    journal = before ++ .ack ⟨.checkpoint, value⟩ number :: (between ++ .intent ⟨.retain, cutoff⟩ :: after) ∧
      Acknowledged before found ∧ ∀ other, Acknowledged before other → other.2 < cutoff

/-- A record that was told as done and that no retention can have removed. -/
def Spared (journal : List Entry) (found : Nat × Nat) : Prop := Acknowledged journal found ∧ ¬ Removable journal found

theorem removable_grows (removable : Removable journal found) : Removable (journal ++ [entry]) found := by
  obtain ⟨before, value, number, between, cutoff, after, rfl, acked, below⟩ := removable
  exact ⟨before, value, number, between, cutoff, after ++ [entry], by simp, acked, below⟩

-- A record can only be removed by a retention behind its acknowledgement.
theorem removable_behind (removable : Removable journal found) :
    ∃ front back cutoff, journal = front ++ .ack ⟨.append, found.2⟩ found.1 :: back ∧ .intent ⟨.retain, cutoff⟩ ∈ back := by
  obtain ⟨before, value, number, between, cutoff, after, rfl, acked, _⟩ := removable
  obtain ⟨front, rest, rfl⟩ := List.append_of_mem acked
  exact ⟨front, rest ++ .ack ⟨.checkpoint, value⟩ number :: (between ++ .intent ⟨.retain, cutoff⟩ :: after), cutoff, by simp, by simp⟩

theorem mem_newest {records : List (Nat × Nat)} (member : found ∈ records) : found.2 ≤ newest records := by
  by_cases zero : found.2 = 0
  · omega
  · exact (le_newest records (by omega)).mpr ⟨found, member, Nat.le_refl _⟩

/-- Where in the journal the records of a tally were acknowledged. -/
structure Placed (journal : List Entry) (state : Tally) : Prop where
  segments : ∀ segment ∈ state.segments, ∃ before value number after,
    journal = before ++ .ack ⟨.checkpoint, value⟩ number :: after ∧ (∀ found ∈ segment.records, Acknowledged before found) ∧
      ∀ found, Acknowledged before found → found.2 ≤ newest segment.records
  pending : ∀ found ∈ state.pending, Acknowledged journal found
  below : ∀ found, Acknowledged journal found → found.2 ≤ state.floor
  last : state.pending ≠ [] → state.floor ≤ newest state.pending

theorem Placed.later (placed : Placed journal state) (entry : Entry) : ∀ segment ∈ state.segments, ∃ before value number after,
    journal ++ [entry] = before ++ .ack ⟨.checkpoint, value⟩ number :: after ∧
      (∀ found ∈ segment.records, Acknowledged before found) ∧ ∀ found, Acknowledged before found → found.2 ≤ newest segment.records := by
  intro segment member
  obtain ⟨before, value, number, after, rfl, inside, least⟩ := placed.segments segment member
  exact ⟨before, value, number, after ++ [entry], by simp, inside, least⟩

/-- An entry that acknowledges no append. -/
theorem Placed.grows (placed : Placed journal state)
    (other : ∀ found, Acknowledged (journal ++ [entry]) found → Acknowledged journal found) : Placed (journal ++ [entry]) state where
  segments := placed.later entry
  pending := fun found member => List.mem_append_left _ (placed.pending found member)
  below := fun found acked => placed.below found (other found acked)
  last := placed.last

theorem acknowledged_old (other : ∀ value sequence, entry ≠ .ack ⟨.append, value⟩ sequence) (found : Nat × Nat)
    (acked : Acknowledged (journal ++ [entry]) found) : Acknowledged journal found :=
  (List.mem_append.mp acked).resolve_right fun last => other _ _ (List.mem_singleton.mp last).symm

/-- The acknowledgement of an operation: one case for each. -/
theorem Placed.applies {line : Command} {sequence : Nat} {after : Tally} (placed : Placed journal state)
    (applied : Applied state line (if line.op = .append then some sequence else none) after) :
    Placed (journal ++ [.ack line sequence]) after := by
  generalize told : (if line.op = .append then some sequence else none) = number at applied
  cases applied with
  | @append value number above numbered =>
      have same : sequence = state.high + 1 := numbered sequence told.symm
      subst same
      refine ⟨placed.later _, fun found member => ?_, fun found acked => ?_, fun _ => ?_⟩
      · rcases List.mem_append.mp member with old | new
        · exact List.mem_append_left _ (placed.pending found old)
        · rw [List.mem_singleton.mp new]
          exact List.mem_append_right _ (List.mem_singleton_self _)
      · rcases List.mem_append.mp acked with old | new
        · exact Nat.le_of_lt (Nat.lt_of_le_of_lt (placed.below found old) above)
        · obtain ⟨numbered, time⟩ := found
          cases List.mem_singleton.mp new
          exact Nat.le_refl _
      · exact @mem_newest (state.high + 1, value) _ (List.mem_append_right _ (List.mem_singleton_self _))
  | bare => exact placed.grows (acknowledged_old nofun)
  | @checkpoint value number some =>
      refine ⟨fun segment member => ?_, fun found member => (nomatch member),
        fun found acked => placed.below found (@acknowledged_old journal (.ack ⟨.checkpoint, value⟩ sequence) nofun found acked),
        fun none => absurd rfl none⟩
      rcases List.mem_append.mp member with old | new
      · exact placed.later _ segment old
      · rw [List.mem_singleton.mp new]
        exact ⟨journal, value, sequence, [], rfl, placed.pending, fun found acked => Nat.le_trans (placed.below found acked) (placed.last some)⟩
  | @retain value number =>
      have grown := placed.grows (@acknowledged_old journal (.ack ⟨.retain, value⟩ sequence) nofun)
      exact ⟨fun segment member => grown.segments segment (List.mem_filter.mp member).1, grown.pending, grown.below, grown.last⟩

/-- The operation that is still open was asked for behind all acknowledgements. -/
def Open (journal : List Entry) (line : Command) : Prop :=
  ∃ front back, journal = front ++ .intent line :: back ∧ ∀ other number, Entry.ack other number ∉ back

theorem open_grows {line : Command} (opened : Open journal line) (other : ∀ line sequence, entry ≠ .ack line sequence) :
    Open (journal ++ [entry]) line := by
  obtain ⟨front, back, rfl, none⟩ := opened
  refine ⟨front, back ++ [entry], by simp, fun line number member => ?_⟩
  rcases List.mem_append.mp member with old | new
  · exact none line number old
  · exact other line number (List.mem_singleton.mp new).symm

theorem open_intended {line : Command} (opened : Open journal line) : Intended journal line := by
  obtain ⟨front, back, rfl, _⟩ := opened
  exact List.mem_append_right _ List.mem_cons_self

-- A segment that an open retention removes was installed before it.
theorem open_removes {line : Command} (placed : Placed journal state) (opened : Open journal line) (retain : line.op = .retain) :
    ∀ segment ∈ state.segments, newest segment.records < line.value → ∀ found ∈ segment.records, ¬ Spared journal found := by
  obtain ⟨op, cutoff⟩ := line
  cases retain
  rintro segment member early found inside ⟨_, unremoved⟩
  obtain ⟨before, value, number, after, split, acked, least⟩ := placed.segments segment member
  obtain ⟨front, back, rfl, none⟩ := opened
  have below : ∀ other, Acknowledged before other → other.2 < cutoff := fun other told => Nat.lt_of_le_of_lt (least other told) early
  rcases List.append_eq_append_iff.mp split with ⟨middle, left, right⟩ | ⟨middle, left, right⟩
  · cases middle with
    | nil => cases right
    | cons first rest =>
        cases right
        exact none _ _ (List.mem_append_right _ List.mem_cons_self)
  · cases middle with
    | nil => cases right
    | cons first rest =>
        cases right
        subst left
        exact unremoved ⟨before, value, number, rest, cutoff, back, by simp, acked found inside, below⟩

/-- The ledger of a journal. -/
structure Reckoned (journal : List Entry) (ledger : Ledger) : Prop where
  opened : ∀ line, ledger.pending = some line → Open journal line
  placed : Placed journal ledger.state
  faithful : Faithful (Intended journal) (Spared journal) ledger.state

theorem reckoned_quiet (reckoned : Reckoned journal ledger) (state : next.state = ledger.state)
    (pending : ∀ line, next.pending = some line → ledger.pending = some line ∨ entry = .intent line)
    (other : ∀ line sequence, entry ≠ .ack line sequence) : Reckoned (journal ++ [entry]) next where
  opened := fun line same => by
    rcases pending line same with old | rfl
    · exact open_grows (reckoned.opened line old) other
    · exact ⟨journal, [], rfl, fun _ _ => List.not_mem_nil⟩
  placed := by
    rw [state]
    exact reckoned.placed.grows (acknowledged_old fun _ _ => other _ _)
  faithful := by
    rw [state]
    exact reckoned.faithful.mono (fun _ => List.mem_append_left _) fun found spared =>
      ⟨acknowledged_old (fun _ _ => other _ _) found spared.1, fun removable => spared.2 (removable_grows removable)⟩

/-- Every entry keeps the books. -/
theorem scan_reckoned (scanned : scan journal = .ok ledger) : Reckoned journal ledger := by
  refine scan_invariant ?_ (fun journal ledger entry next reckoned noted => ?_) scanned
  · exact ⟨nofun, ⟨fun _ member => (by cases member), fun _ member => (by cases member), fun _ acked => (by cases acked),
      fun none => absurd rfl none⟩, ⟨fun _ spared => (by cases spared.1), fun _ member => (by cases member), .nil,
      fun _ member => (by cases member)⟩⟩
  · cases noted with
    | start | ended | uncertain => exact reckoned_quiet reckoned rfl (fun _ => .inl) nofun
    | intent => exact reckoned_quiet reckoned rfl (fun line same => .inr (congrArg Entry.intent (Option.some.inj same))) nofun
    | @ack line sequence state open_ applied =>
        have opened := reckoned.opened line open_
        have done := reckoned.faithful.applies (open_intended opened) applied (open_removes reckoned.placed opened)
        refine ⟨nofun, reckoned.placed.applies applied, done.mono (fun _ => List.mem_append_left _) ?_⟩
        rintro found ⟨acked, unremoved⟩
        rcases List.mem_append.mp acked with old | new
        · exact .inl ⟨old, fun removable => unremoved (removable_grows removable)⟩
        · cases List.mem_singleton.mp new
          exact .inr ⟨rfl, rfl, rfl⟩

theorem candidates_faithful {states : List Tally} (computed : candidates journal = .ok states) :
    ∀ state ∈ states, Faithful (Intended journal) (Spared journal) state := by
  obtain ⟨ledger, scanned, ⟨_, rfl⟩ | ⟨line, after, open_, applied, rfl⟩⟩ := candidates_cases computed
  · intro state member
    rw [List.mem_singleton.mp member]
    exact (scan_reckoned scanned).faithful
  · have reckoned := scan_reckoned scanned
    have opened := reckoned.opened line open_
    intro state member
    rcases List.mem_cons.mp member with rfl | last
    · exact reckoned.faithful
    · rw [List.mem_singleton.mp last]
      exact (reckoned.faithful.applies (open_intended opened) applied (open_removes reckoned.placed opened)).mono (fun _ => id)
        fun found => .inl

end Journals

section Comparing

theorem actual_records {dump : List Line} {records : List (Nat × Nat)} (read : actual dump = .ok records) :
    records = (recordsOf dump).map (fun found => (found.1, found.2.timestamp.toNat)) ∧
      ∀ found ∈ recordsOf dump, found.2.series.toNat = 14 ∧ found.2.value.toInt = found.2.timestamp.toNat := by
  induction dump generalizing records with
  | nil =>
      cases read
      exact ⟨rfl, fun found member => (by cases member)⟩
  | cons line rest ih =>
      cases line with
      | record sequence found =>
          rw [actual] at read
          by_cases contents : found.series.toNat = 14 ∧ found.value.toInt = found.timestamp.toNat
          · rw [if_pos contents] at read
            cases later : actual rest with
            | error complaint =>
                rw [later] at read
                cases read
            | ok more =>
                rw [later] at read
                cases read
                obtain ⟨rfl, all⟩ := ih later
                refine ⟨rfl, fun other member => ?_⟩
                rcases List.mem_cons.mp member with rfl | inside
                · exact contents
                · exact all other inside
          · rw [if_neg contents] at read
            cases read
      | _ => exact ih read

-- A comparison that passes has read the records of a state that it expects.
theorem compare_agrees {journal : List Entry} {dump : List Line} {continuation : Option Nat} {report : Report}
    (passes : Trials.compare journal dump continuation = .ok report) :
    ∃ states expected, candidates journal = .ok states ∧ states.mapM (fun state => state.continued continuation) = .ok expected ∧
      ∃ state ∈ expected, actual dump = .ok state.records := by
  rw [Trials.compare] at passes
  split at passes
  · cases passes
  cases read : actual dump with
  | error complaint =>
      rw [read] at passes
      cases passes
  | ok found =>
      rw [read] at passes
      simp only [bind, Except.bind] at passes
      split at passes
      · split at passes
        · cases passes
        cases computed : candidates journal with
        | error complaint =>
            rw [computed] at passes
            cases passes
        | ok states =>
            rw [computed] at passes
            simp only at passes
            cases ahead : states.mapM (fun state => state.continued continuation) with
            | error complaint =>
                rw [ahead] at passes
                cases passes
            | ok expected =>
                rw [ahead] at passes
                simp only at passes
                split at passes
                · cases passes
                · rename_i agreeing
                  obtain ⟨state, member⟩ := List.exists_mem_of_ne_nil _ agreeing
                  obtain ⟨inside, same⟩ := List.mem_filter.mp member
                  exact ⟨states, expected, rfl, ahead, state, inside, congrArg _ (of_decide_eq_true same).1.symm⟩
      · cases passes

theorem continued_faithful {journal : List Entry} {state next : Tally} {continuation : Option Nat}
    (faithful : Faithful (Intended journal) (Spared journal) state) (continued : state.continued continuation = .ok next) :
    Faithful (fun line => Intended journal line ∨ ∃ id, continuation = some id ∧ line = ⟨.append, id⟩) (Spared journal) next := by
  have wider := @Faithful.mono state (Intended journal) (Spared journal)
    (fun line => Intended journal line ∨ ∃ id, continuation = some id ∧ line = ⟨.append, id⟩) (Spared journal) faithful
    (fun _ => .inl) fun _ => id
  cases continuation with
  | none =>
      cases continued
      exact wider
  | some id =>
      exact (wider.applies (.inr ⟨id, rfl, rfl⟩) (apply_applied continued) (fun same => by cases same)).mono (fun _ same => same)
        fun found => .inl

theorem traversed_mem {α β ε : Type} {f : α → Except ε β} {values : List α} {results : List β} (ran : values.mapM f = .ok results) :
    ∀ result ∈ results, ∃ value ∈ values, f value = .ok result := by
  induction values generalizing results with
  | nil =>
      cases ran
      exact fun result member => by cases member
  | cons value rest ih =>
      rw [List.mapM_cons] at ran
      cases first : f value with
      | error error =>
          rw [first] at ran
          cases ran
      | ok head =>
          cases later : rest.mapM f with
          | error error =>
              rw [first, later] at ran
              cases ran
          | ok tail =>
              rw [first, later] at ran
              cases ran
              intro result member
              rcases List.mem_cons.mp member with rfl | inside
              · exact ⟨value, List.mem_cons_self, first⟩
              · obtain ⟨value', member', same⟩ := ih later result inside
                exact ⟨value', List.mem_cons_of_mem _ member', same⟩

/-- A dump that passes shows every acknowledged record that no retention asked for can
have removed, shows no record that was not asked for, and shows none twice. -/
theorem certified_kept {journal : List Entry} {dump : List Line} {continuation : Option Nat} {report : Report}
    (passes : Trials.compare journal dump continuation = .ok report) :
    (∀ value sequence, Entry.ack ⟨.append, value⟩ sequence ∈ journal → ¬ Removable journal (sequence, value) →
      ∃ found, (sequence, found) ∈ recordsOf dump ∧ found.timestamp.toNat = value) ∧
    (∀ found ∈ recordsOf dump, found.2.series.toNat = 14 ∧ found.2.value.toInt = found.2.timestamp.toNat ∧
      (Entry.intent ⟨.append, found.2.timestamp.toNat⟩ ∈ journal ∨ continuation = some found.2.timestamp.toNat)) ∧
    (recordsOf dump).Pairwise fun first second => first.1 < second.1 ∧ first.2.timestamp.toNat < second.2.timestamp.toNat := by
  obtain ⟨states, expected, computed, ahead, state, member, read⟩ := compare_agrees passes
  obtain ⟨before, inside, continued⟩ := traversed_mem ahead state member
  have faithful := continued_faithful (candidates_faithful computed before inside) continued
  obtain ⟨same, contents⟩ := actual_records read
  refine ⟨fun value sequence acked unremoved => ?_, fun found shown => ⟨(contents found shown).1, (contents found shown).2, ?_⟩, ?_⟩
  · have kept := faithful.kept (sequence, value) ⟨acked, unremoved⟩
    rw [same] at kept
    obtain ⟨found, shown, equal⟩ := List.mem_map.mp kept
    cases equal
    exact ⟨found.2, shown, rfl⟩
  · have recorded : (found.1, found.2.timestamp.toNat) ∈ state.records := by
      rw [same]
      exact List.mem_map.mpr ⟨found, shown, rfl⟩
    rcases faithful.origin _ recorded with intended | ⟨id, given, line⟩
    · exact .inl intended
    · cases line
      exact .inr given
  · have rising := faithful.rising
    rw [same] at rising
    exact List.pairwise_map.mp rising

/-- The first record was installed and expired, the second one came behind the retention. -/
def expiredJournal : List Entry :=
  [.start, .intent ⟨.append, 100⟩, .ack ⟨.append, 100⟩ 1, .intent ⟨.checkpoint, 1⟩, .ack ⟨.checkpoint, 1⟩ 0,
    .intent ⟨.retain, 1000⟩, .ack ⟨.retain, 1000⟩ 0, .intent ⟨.append, 200⟩, .ack ⟨.append, 200⟩ 2]

theorem expired_spares : ¬ Removable expiredJournal (2, 200) := by
  intro removable
  obtain ⟨front, back, cutoff, split, member⟩ := removable_behind removable
  -- Its acknowledgement is the last entry.
  have last : ∀ rest ∈ expiredJournal.tails, rest.head? = some (.ack ⟨.append, 200⟩ 2) → rest.tail = [] := by decide
  rw [show back = [] from last _ ((List.mem_tails _ _).mpr ⟨front, split.symm⟩) rfl] at member
  cases member

/-- The dump of the pair behind it. -/
def expiredDump : List Line :=
  dumpLines "db" "wal" ⟨1, 0, 1, 0, 116, 0, 200⟩ [item (2, 200)]

theorem certified_kept_expired :
    Trials.compare expiredJournal expiredDump none = .ok ⟨1, false, 1, false⟩ ∧
      ∃ found, (2, found) ∈ recordsOf expiredDump ∧ found.timestamp.toNat = 200 :=
  have passes : Trials.compare expiredJournal expiredDump none = .ok ⟨1, false, 1, false⟩ := by decide +kernel
  ⟨passes, (certified_kept passes).1 200 2 (by decide) expired_spares⟩

end Comparing

section Completeness

end Completeness

end Timelite.Attesting
