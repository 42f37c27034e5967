import Timelite.Interrupting

/-!
Batches that a successful call has shown stay, under their sequence numbers,
through failures, restarts and crashes; only an expiration of their whole
segment removes them.
-/
namespace Timelite.Visibility
open ByteFile Program Durable Codec Backend BackendLaws Layout HeaderWalk WalLaws Spans Contents Crashes Databases Calls
  Appending Checkpointing Retaining Cursor Expiring Ranging BatchApi Opening Creating Atomicity System Refinement Soundness
  Observing Interrupting

/-- The open handle of a host returns this batch to a reader. -/
def Exposed (host : Host) (item : Item) : Prop :=
  batchReady host.db = .ok () ∧ ∃ items, Exposes host items ∧ item ∈ items

/-- The successful calls that show a batch, with the host after the call. A range read
shows the matching records only, the status counts the batches. -/
inductive Shown : Event → Host → Item → Prop where
  | append {host : Host} (records : List Record) (scratchSize sequence : Nat) :
      Shown (.returned (.append records scratchSize) (.ok (.sequence sequence))) host (sequence, records)
  | next {host : Host} (capacity scratchSize sequence : Nat) (records : List Record) :
      Shown (.returned (.next capacity scratchSize) (.ok (.batch sequence records))) host (sequence, records)
  | nextRange {host : Host} (range : Range) (capacity scratchSize sequence : Nat) (records : List Record)
      (exposed : Exposed host (sequence, records)) :
      Shown (.returned (.nextRange range capacity scratchSize)
        (.ok (.batch sequence (records.filter (inRange range))))) host (sequence, records)
  | counted {host : Host} (status : Status) (item : Item) (exposed : Exposed host item) :
      Shown (.returned .getStatus (.ok (.status status))) host item

/-- The call does not expire the segment of the batch. -/
def Spares (item : Item) (host : Host) (act : Act) : Prop :=
  ∀ cutoff scratchSize, act = .expireBefore cutoff scratchSize → ∀ identity v, Holding host identity v →
    ∀ segment ∈ v.content.segments, item ∈ segment.numbered.map shown → ∃ time ∈ segment.times, cutoff ≤ time

/-- A run whose expirations spare the segment of the batch. -/
inductive Sparing (item : Item) : Host → List Event → Host → Prop where
  | start (host : Host) : Sparing item host [] host
  | step {first middle last : Host} {events : List Event} {event : Event} (before : Sparing item first events middle)
      (after : Step middle event last) (spares : Spares item middle event.act) :
      Sparing item first (events ++ [event]) last

section Contents
variable {content content' : Content} {act : Act} {item : Item}

/-- No exposed timestamp is above the floor. -/
def Timely (content : Content) : Prop :=
  ∀ item ∈ content.exposed, ∀ time ∈ item.2.times, time ≤ content.floor

theorem timely_empty : Timely .empty := fun item member => by cases member

theorem floor_append {batch : Batch} {more : content.high < uint64Max}
    {space : content.walEnd + batch.size ≤ walCapacity} :
    (content.append batch more space).floor = finalOf batch.times := by
  simp only [Content.floor, Content.append]
  rw [last_time_snoc, batch_final]

theorem floor_rises {batch : Batch} (accepted : Accepted content batch) (some : content.high ≠ 0) :
    content.floor ≤ finalOf batch.times :=
  le_trans (accepted.ordered.2 some) (rising_le_final accepted.ordered.1 (first_mem (batch_times_ne batch)))

theorem timely_effect (timely : Timely content) (effect : Effect act content content') : Timely content' := by
  cases effect with
  | append batch scratchSize content accepted =>
      intro item member time inside
      rw [floor_append]
      rw [exposed_append] at member
      rcases List.mem_append.mp member with old | new
      · have some : content.high ≠ 0 := by
          have bounds := exposed_bounds old
          omega
        exact le_trans (timely item old time inside) (floor_rises accepted some)
      · rw [List.mem_singleton.mp new] at inside
        exact rising_le_final accepted.ordered.1 inside
  | checkpoint scratchSize content some space =>
      intro item member
      rw [exposed_checkpoint] at member
      exact timely item member
  | expire cutoff scratchSize content =>
      intro item member
      exact timely item (exposed_expire member)

theorem exposed_inj {one other : Nat × Batch} (member : one ∈ content.exposed) (member' : other ∈ content.exposed)
    (same : one.1 = other.1) : one = other := by
  have distinct : (content.exposed.map Prod.fst).Nodup :=
    List.pairwise_map.mpr ((exposed_increasing content).imp fun below => Nat.ne_of_lt below)
  exact List.inj_on_of_nodup_map distinct member member' same

/-- The number of the batch belongs to nothing else, and the floor has passed it. -/
structure Claimed (item : Item) (content : Content) : Prop where
  honest : Honest content
  assigned : item.1 ≤ content.high
  positive : 0 < item.1
  alone : ∀ other ∈ listed content, other.1 = item.1 → other = item
  passed : ∀ record ∈ item.2, record.timestamp.toNat ≤ content.floor

theorem claimed_effect (claimed : Claimed item content) (effect : Effect act content content') :
    Claimed item content' := by
  have honest := honest_effect claimed.honest effect
  cases effect with
  | append batch scratchSize content accepted =>
      have assigned := claimed.assigned
      have positive := claimed.positive
      refine ⟨honest, ?_, positive, fun other member same => ?_, fun record inside => ?_⟩
      · simp only [Content.high, Content.append, List.length_append] at assigned ⊢
        omega
      · rw [listed_append] at member
        rcases List.mem_append.mp member with old | new
        · exact claimed.alone other old same
        · rw [List.mem_singleton.mp new] at same
          simp only at same
          omega
      · rw [floor_append]
        exact le_trans (claimed.passed record inside) (floor_rises accepted (by omega))
  | checkpoint scratchSize content some space =>
      refine ⟨honest, claimed.assigned, claimed.positive, fun other member => ?_, claimed.passed⟩
      rw [listed_checkpoint] at member
      exact claimed.alone other member
  | expire cutoff scratchSize content =>
      refine ⟨honest, claimed.assigned, claimed.positive, fun other member => ?_, claimed.passed⟩
      obtain ⟨inner, inside, rfl⟩ := List.mem_map.mp member
      exact claimed.alone _ (List.mem_map_of_mem (exposed_expire inside))

theorem claimed_of_listed (honest : Honest content) (timely : Timely content) (member : item ∈ listed content) :
    Claimed item content := by
  obtain ⟨inner, inside, rfl⟩ := List.mem_map.mp member
  have bounds := exposed_bounds inside
  refine ⟨honest, bounds.2, bounds.1, fun other member same => ?_, fun record inside' => ?_⟩
  · obtain ⟨inner', inside', rfl⟩ := List.mem_map.mp member
    rw [exposed_inj inside' inside same]
  · exact timely inner inside _ (List.mem_map_of_mem inside')

end Contents

section Runs
variable {φ : Content → Prop} {host host' middle last : Host} {identity : Bytes} {item : Item}

theorem exposed_listed {v : View} (holding : Holding host identity v) (exposed : Exposed host item) :
    item ∈ listed v.content := by
  obtain ⟨_, items, exposes, member⟩ := exposed
  rwa [exposes_unique exposes (holding_exposes holding)] at member

theorem listed_exposed {v : View} (holding : Holding host identity v) (member : item ∈ listed v.content) :
    Exposed host item :=
  ⟨holding.live.settled.serving.batch_ready, _, holding_exposes holding, member⟩

theorem due_listed {content : Content} {position : Nat} {other : Nat × Batch} (member : other ∈ due content position) :
    shown other ∈ listed content := List.mem_map_of_mem (List.mem_filter.mp member).1

theorem sound_ready (sound : Sound φ identity host) (ready : batchReady host.db = .ok ()) :
    ∃ v : View, φ v.content ∧ Live host.store host.db identity v.content v.m v.position := by
  cases sound with
  | live v holds live => exact ⟨v, holds, live⟩
  | down unready wide safe =>
      obtain ⟨error, refused⟩ := unready_error unready
      rw [refused] at ready
      cases ready

/-- A call that shows a batch leaves a live handle that exposes it. -/
theorem shown_listed {event : Event} (sound : Sound φ identity host) (honest : ∀ content, φ content → Honest content)
    (closed : ∀ content content', φ content → Effect event.act content content' → φ content')
    (step : Step host event middle) (shows : Shown event middle item) :
    ∃ v : View, φ v.content ∧ Live middle.store middle.db identity v.content v.m v.position ∧ item ∈ listed v.content := by
  have keeps : Keeps φ identity host event.act := fun v holds _ content' => closed v.content content' holds
  have exposed : Exposed middle item → ∃ v : View, φ v.content ∧
      Live middle.store middle.db identity v.content v.m v.position ∧ item ∈ listed v.content := by
    intro exposed
    obtain ⟨v, holds, live⟩ := sound_ready (step_sound sound honest keeps step) exposed.1
    exact ⟨v, holds, live, exposed_listed ⟨live, honest _ holds⟩ exposed⟩
  -- The answer of a live host shows the batch; no other host answers so.
  have answered : ∀ {act : Act} {answer : Answer}, event = .returned act (.ok answer) → act ≠ .close →
      (∀ mode scratchSize, act ≠ .openPair mode scratchSize) →
      (∀ v v' : View, Answers act v (.ok answer) v' → item ∈ listed v'.content) →
      ∃ v : View, φ v.content ∧ Live middle.store middle.db identity v.content v.m v.position ∧
        item ∈ listed v.content := by
    rintro act answer rfl other reopen shape
    cases step with
    | returned execution =>
        have cases_ := @returned_cases φ identity host ⟨_, _⟩ act _ sound honest keeps execution
        cases cases_ with
        | answered v v' holds holds' live answers live' => exact ⟨v', holds', live', shape v v' answers⟩
        | closed close same unready => exact absurd close other
        | opened v mode scratchSize reopened unready holds start success live =>
            exact absurd reopened (reopen mode scratchSize)
        | failed v code holds live refused same => cases refused
        | poisoned v code holds live refused unready safe => cases refused
        | refused error unready refusal same safe => cases refusal
  cases shows with
  | append records scratchSize sequence =>
      refine answered rfl (by simp) (by simp) fun v v' answers => ?_
      cases answers with
      | append batch scratchSize v accepted none =>
          rw [listed_append]
          exact List.mem_append_right _ (by simp)
  | next capacity scratchSize sequence records =>
      refine answered rfl (by simp) (by simp) fun v v' answers => ?_
      cases answers with
      | next capacity scratchSize v sequence batch later large first fits =>
          have member : (sequence, batch) ∈ due v.content v.position := by rw [first]; exact List.mem_cons_self
          exact due_listed member
  | nextRange range capacity scratchSize sequence records exposed' => exact exposed exposed'
  | counted status item exposed' => exact exposed exposed'

-- The same induction as for a run, with what the expirations spare.
theorem sparing_sound {events : List Event}
    (sound : Sound (fun content => Honest content ∧ item ∈ listed content) identity host)
    (sparing : Sparing item host events last) :
    Sound (fun content => Honest content ∧ item ∈ listed content) identity last := by
  induction sparing with
  | start => exact sound
  | step before after spares ih =>
      refine step_sound ih (fun content holds => holds.1) (fun v holds live content' effect => ?_) after
      refine ⟨honest_effect holds.1 effect, ?_⟩
      have keeps := holds.2
      generalize event : Event.act _ = act at effect spares
      generalize shape : v.content = content at effect keeps
      cases effect with
      | append batch scratchSize content accepted =>
          rw [listed_append]
          exact List.mem_append_left _ keeps
      | checkpoint scratchSize content some space => rwa [listed_checkpoint]
      | expire cutoff scratchSize content =>
          subst shape
          obtain ⟨inner, inside, rfl⟩ := List.mem_map.mp keeps
          refine List.mem_map_of_mem ?_
          rcases List.mem_append.mp inside with installed | queued
          · obtain ⟨segment, within, numbered⟩ := List.mem_flatMap.mp installed
            obtain ⟨time, recent, late⟩ := spares cutoff scratchSize rfl identity v ⟨live, holds.1⟩ segment within
              (List.mem_map_of_mem numbered)
            refine List.mem_append_left _ (List.mem_flatMap.mpr ⟨segment, List.mem_filter.mpr ⟨within, ?_⟩, numbered⟩)
            rw [Bool.not_eq_true', ← Bool.not_eq_true, expires_iff (holds.1 segment within)]
            intro every
            have early := every time recent
            omega
          · exact List.mem_append_right _ queued

-- An append on a host whose content claims the batch assigns a later number.
theorem append_above {records : List Record} {scratchSize sequence : Nat} (sound : Sound (Claimed item) identity host)
    (step : Step host (.returned (.append records scratchSize) (.ok (.sequence sequence))) last) :
    item.1 < sequence := by
  cases step with
  | returned execution =>
      have cases_ := @returned_cases (Claimed item) identity host ⟨_, _⟩ _ _ sound (fun _ claimed => claimed.honest)
        (fun v claimed _ content' effect => claimed_effect claimed effect) execution
      cases cases_ with
      | answered v v' holds holds' live answers live' =>
          cases answers with
          | append batch scratchSize v accepted none =>
              have assigned := holds.assigned
              omega
      | closed close same unready => cases close
      | opened v mode scratchSize reopened unready holds start success live => cases reopened
      | failed v code holds live refused same => cases refused
      | poisoned v code holds live refused unready safe => cases refused
      | refused error unready refusal same safe => cases refusal

end Runs

/-- What a successful call has shown is durable: later opens expose the batch until an
expiration of its segment, its number is never given to another batch, and the floor
of the appends stays at or above its timestamps. -/
theorem visible_durable {start host middle : Host} {before : List Event} {event : Event} {item : Item}
    (created : Created start) (run : Run start before host) (step : Step host event middle)
    (shows : Shown event middle item) :
    (∀ later last, Sparing item middle later last → batchReady last.db = .ok () → Exposed last item) ∧
    ∀ later last, Run middle later last →
      (∀ other, Exposed last other → other.1 = item.1 → other = item) ∧
      (∀ records scratchSize sequence,
        .returned (.append records scratchSize) (.ok (.sequence sequence)) ∈ later → item.1 < sequence) ∧
      (batchReady last.db = .ok () → ∃ status, (last.call .getStatus).1 = .ok (.status status) ∧
        ∀ record ∈ item.2, record.timestamp.toNat ≤ status.lastTimestamp) := by
  obtain ⟨identity, live⟩ := created_live created
  have closed : ∀ act content content', Honest content ∧ Timely content → Effect act content content' →
      Honest content' ∧ Timely content' := fun act content content' holds effect =>
    ⟨honest_effect holds.1 effect, timely_effect holds.2 effect⟩
  have first : Sound (fun content => Honest content ∧ Timely content) identity host :=
    run_sound (.live ⟨.empty, createdManifests, 1⟩ ⟨honest_empty, timely_empty⟩ live) (fun _ holds => holds.1)
      (fun event _ => closed event.act) run
  obtain ⟨v, holds, live', member⟩ := shown_listed first (fun _ holds => holds.1) (closed event.act) step shows
  refine ⟨fun later last sparing ready => ?_, fun later last onward => ?_⟩
  · obtain ⟨v', holds', live''⟩ := sound_ready (sparing_sound (.live v ⟨holds.1, member⟩ live') sparing) ready
    exact listed_exposed ⟨live'', holds'.1⟩ holds'.2
  · have claimed := claimed_of_listed holds.1 holds.2 member
    have sound : ∀ events host, Run middle events host → Sound (Claimed item) identity host := fun events host run =>
      run_sound (.live v claimed live') (fun _ claimed => claimed.honest)
        (fun event _ content content' claimed effect => claimed_effect claimed effect) run
    refine ⟨fun other exposed same => ?_, fun records scratchSize sequence inside => ?_, fun ready => ?_⟩
    · obtain ⟨v', claimed', live''⟩ := sound_ready (sound later last onward) exposed.1
      exact claimed'.alone other (exposed_listed ⟨live'', claimed'.honest⟩ exposed) same
    · induction onward with
      | start => cases inside
      | step before after ih =>
          rcases List.mem_append.mp inside with earlier | now
          · exact ih earlier
          · rw [List.mem_singleton] at now
            subst now
            exact append_above (sound _ _ before) after
    · obtain ⟨v', claimed', live''⟩ := sound_ready (sound later last onward) ready
      exact ⟨_, congrArg Prod.fst (holding_status ⟨live'', claimed'.honest⟩), claimed'.passed⟩

/-- The batch of the first append, shown by its sequence number. -/
theorem visible_durable_filled :
    (∀ later last, Sparing (1, [⟨1, 5, 7⟩]) filled later last → batchReady last.db = .ok () →
      Exposed last (1, [⟨1, 5, 7⟩])) ∧
    ∀ later last, Run filled later last →
      (∀ other, Exposed last other → other.1 = 1 → other = (1, [⟨1, 5, 7⟩])) ∧
      (∀ records scratchSize sequence,
        .returned (.append records scratchSize) (.ok (.sequence sequence)) ∈ later → 1 < sequence) ∧
      (batchReady last.db = .ok () → ∃ status, (last.call .getStatus).1 = .ok (.status status) ∧
        ∀ record ∈ [(⟨1, 5, 7⟩ : Record)], record.timestamp.toNat ≤ status.lastTimestamp) := by
  have answer : (fresh.call (.append [⟨1, 5, 7⟩] batchScratch)).1 = .ok (.sequence 1) := by decide +kernel
  have step := call_step fresh (.append [⟨1, 5, 7⟩] batchScratch)
  rw [answer] at step
  exact visible_durable fresh_created (.start _) step (.append _ _ _)

end Timelite.Visibility
