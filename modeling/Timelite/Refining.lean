import Timelite.Simulation
import Timelite.Abstract

/-!
Every run of the system, with failures, restarts and crashes, is a run of an
abstract database that loses nothing: a call that succeeds has its whole effect, one
that fails or is cut short has it or not, and an open decides which.
-/
namespace Timelite.Refining
open ByteFile Program Durable Codec Backend BackendLaws Layout HeaderWalk WalLaws Spans Contents Crashes Databases Calls Appending
  Checkpointing Retaining Cursor Expiring Seeking Ranging Aggregating BatchApi Opening Creating Atomicity System Refinement
  Soundness Observing Interrupting Abstract Simulation

/-- What a call makes of the database if it takes effect. -/
inductive Takes : Act → Model → Model → Prop where
  | append {records : List Record} {scratchSize : Nat} {model : Model} (counted : records.length ≠ 0 ∧ records.length ≤ maxRecords)
      (order : ¬ model.Disordered records) (fits : model.walSize + encodedSize records ≤ walCapacity) :
      Takes (.append records scratchSize) model { model with
        pending := model.pending ++ [(model.high + 1, records)]
        high := model.high + 1
        floor := ((records.map (·.timestamp.toNat)).getLast?).getD model.floor }
  | checkpoint {scratchSize : Nat} {model : Model} (occupied : model.pending ≠ [])
      (fits : 160 + Model.installedSize (model.installed ++ [model.pending]) ≤ databaseCapacity) :
      Takes (.checkpoint scratchSize) model { model with installed := model.installed ++ [model.pending], pending := [] }
  | expire {cutoff scratchSize : Nat} {model : Model} :
      Takes (.expireBefore cutoff scratchSize) model { model with installed := model.survivors cutoff }

/-- The database with an open handle, whose reader stands before this sequence number, or what
the database may be without one. -/
inductive Ideal where
  | live (model : Model) (position : Nat)
  | down (possible : Model → Prop)

def after (act : Act) (model : Model) : Model → Prop := fun model' => model' = model ∨ Takes act model model'

inductive Ideal.Step : Ideal → System.Event → Ideal → Prop where
  -- The abstract database decides the answer, refusals and reads included.
  | answered {model model' : Model} {position position' : Nat} {act : Act} {result : Except Error Answer} (other : act ≠ .close)
      (performs : model.perform position act = (result, model', position')) :
      Step (.live model position) (.returned act result) (.live model' position')
  -- A request failed before it had an effect, or a counter is used up.
  | failed {model : Model} {position : Nat} {act : Act} {code : Errno} :
      Step (.live model position) (.returned act (.error (.errno code))) (.live model position)
  | uncertain {model : Model} {position : Nat} {act : Act} {code : Errno} :
      Step (.live model position) (.returned act (.error (.errno code))) (.down (after act model))
  | closed {model : Model} {position : Nat} {result : Except Error Answer} :
      Step (.live model position) (.returned .close result) (.down fun model' => model' = model)
  | restarted {model : Model} {position : Nat} {act : Act} : Step (.live model position) (.restarted act) (.down (after act model))
  | crashed {model : Model} {position : Nat} {act : Act} : Step (.live model position) (.crashed act) (.down (after act model))
  | opened {model : Model} {possible : Model → Prop} {mode : OpenMode} {scratchSize : Nat} (held : possible model) :
      Step (.down possible) (.returned (.openPair mode scratchSize) (.ok .none)) (.live model 1)
  | unopened {possible : Model → Prop} {act : Act} {error : Error} : Step (.down possible) (.returned act (.error error)) (.down possible)
  | unheld {possible : Model → Prop} {result : Except Error Answer} : Step (.down possible) (.returned .close result) (.down possible)
  | rerestarted {possible : Model → Prop} {act : Act} : Step (.down possible) (.restarted act) (.down possible)
  | recrashed {possible : Model → Prop} {act : Act} : Step (.down possible) (.crashed act) (.down possible)

section Effects
variable {content content' : Content} {act : Act} {v v' : View} {answer : Answer}

theorem append_takes {batch : Batch} {scratchSize : Nat} (accepted : Accepted content batch) :
    Takes (.append batch.records scratchSize) (modelOf content) (modelOf (content.append batch accepted.more accepted.space)) := by
  have order : ¬ (modelOf content).Disordered batch.records := by
    rw [disordered_iff, Bool.not_eq_false, times_from]
    refine ⟨accepted.ordered.1, fun record first => ?_⟩
    split
    · rename_i some
      have above := accepted.ordered.2 some
      rw [← first_time, BatchApi.firstTime, first] at above
      exact above
    · exact Nat.zero_le _
  have last : ((batch.records.map (·.timestamp.toNat)).getLast?).getD (modelOf content).floor = finalOf batch.times := by
    rw [finalOf, Batch.times, List.getLast?_eq_some_getLast (by simpa using batch.occupied)]
    rfl
  have takes := @Takes.append batch.records scratchSize (modelOf content) ⟨List.length_pos_iff.mpr batch.occupied |>.ne', batch.few⟩
    order (by rw [wal_size]; exact accepted.space)
  rw [last] at takes
  rw [model_append]
  exact takes

theorem checkpoint_fits (wide : Wide content) (space : content.dataEnd + (64 + framesSize content.pending) ≤ databaseCapacity) :
    160 + Model.installedSize ((modelOf content).installed ++ [(modelOf content).pending]) ≤ databaseCapacity := by
  have installed : Model.installedSize (modelOf content).installed = extent content.segments := installed_size wide
  have pending : batchesSize (modelOf content).pending = framesSize content.pending := size_numbered _ _
  simp only [Model.installedSize, List.map_append, List.sum_append, List.map_cons, List.map_nil, List.sum_cons, List.sum_nil] at installed ⊢
  rw [installed, pending]
  simp only [Content.dataEnd] at space
  omega

/-- What the library makes of a database it created: every segment carries a span and is in
order, and so is the WAL. -/
structure Regular (content : Content) : Prop where
  ordered : ∀ segment ∈ content.segments, segment.ordered = true
  rising : rising (timesOf content.pending) = true

theorem Regular.wide (regular : Regular content) : Wide content :=
  fun segment member => ordered_wide (regular.ordered segment member)

/-- The range reader can always tell from where on the batches are ordered. -/
theorem Regular.located (regular : Regular content) : Located content := by
  have numbered := content.numbered
  rcases List.eq_nil_or_concat' content.segments with none | ⟨front, segment, shape⟩
  · by_cases more : content.installed < uint64Max
    · exact .inl more
    · have pending : content.pending = [] := List.length_eq_zero_iff.mp (by omega)
      refine .inr (.inr ?_)
      rw [Content.exposed, none, Content.queued, pending]
      rfl
  · have last : segment.ordered = true := regular.ordered segment (by rw [shape]; simp)
    have wide : segment.wide = true := ordered_wide last
    have bounds := span_start_bounds front
    refine .inr (.inl ?_)
    rw [shape, span_start_snoc, wide, last, List.length_append, List.length_singleton]
    simp only [if_true, Bool.not_true, Bool.false_eq_true, if_false]
    split <;> omega

theorem regular_empty : Regular .empty := ⟨fun segment member => absurd member List.not_mem_nil, rfl⟩

theorem regular_effect (regular : Regular content) (effect : Effect act content content') : Regular content' := by
  cases effect with
  | append batch scratchSize content accepted =>
      refine ⟨regular.ordered, ?_⟩
      have same := rising_append_batch accepted.ordered
      exact same.trans regular.rising
  | checkpoint scratchSize content some space =>
      refine ⟨fun segment member => ?_, rfl⟩
      rcases List.mem_append.mp member with old | new
      · exact regular.ordered segment old
      · rw [List.mem_singleton.mp new, content.pending_segment_ordered some]
        exact regular.rising
  | expire => exact ⟨fun segment member => regular.ordered segment (List.mem_filter.mp member).1, regular.rising⟩

/-- An effect on a content is one on its database. -/
theorem effect_takes (honest : Honest content) (regular : Regular content) (effect : Effect act content content') :
    Honest content' ∧ Regular content' ∧ Takes act (modelOf content) (modelOf content') := by
  refine ⟨honest_effect honest effect, regular_effect regular effect, ?_⟩
  cases effect with
  | append batch scratchSize content accepted => exact append_takes accepted
  | checkpoint scratchSize content some space =>
      rw [model_checkpoint]
      exact .checkpoint (fun none => some (pending_nil.mp none)) (checkpoint_fits regular.wide space)
  | expire cutoff scratchSize content =>
      rw [model_expire honest]
      exact .expire

end Effects

section Reads
variable {content : Content} {position capacity scratchSize : Nat} {range : Range}

theorem items_listed (content : Content) : (modelOf content).items = listed content := listed_model content

theorem ahead_due (content : Content) (position : Nat) :
    (modelOf content).ahead position = (due content position).map shown := by
  rw [Model.ahead, items_listed, listed, List.filter_map]
  rfl

theorem sought_listed (content : Content) (from_us : Nat) :
    (modelOf content).items.find? (fun item => decide (from_us ≤ itemTime item)) = (sought content from_us).map shown := by
  have same : (fun item => decide (from_us ≤ itemTime item)) ∘ shown = reaches from_us := by
    funext item
    rw [Function.comp_apply, item_time]
    rfl
  rw [items_listed, listed, List.find?_map, same]
  rfl

theorem hit_ahead (content : Content) (position : Nat) (range : Range) :
    ((modelOf content).ahead position).find? (fun item => !(Model.matching range item).isEmpty) =
      ((due content position).find? (hasHit range)).map shown := by
  rw [ahead_due, List.find?_map]
  rfl

theorem aggregate_agrees (content : Content) (range : Range) (scratchSize : Nat) :
    (modelOf content).aggregateRange range scratchSize = (aggregated content range scratchSize).map .aggregate := by
  have values : ((modelOf content).items.flatMap fun item => (Model.matching range item).map (·.value)) =
      valuesIn range content.exposed := by
    rw [items_listed, listed, List.flatMap_map]
    rfl
  rw [Model.aggregateRange, aggregated, values]
  split
  · rfl
  split <;> rfl

theorem status_agrees (wide : Wide content) : (modelOf content).status = statusOf content := by
  have counted : (modelOf content).items.length = live content.segments + content.pending.length := by
    rw [items_listed, listed_length]
  have installed : (modelOf content).installed.flatten.length = live content.segments := by
    have parts := congrArg List.length (listed_model content)
    rw [List.length_append, listed_length, modelOf, List.length_map, Content.queued, number_length] at parts
    exact Nat.add_right_cancel parts
  have pending : (modelOf content).pending.length = content.pending.length := by
    rw [modelOf, List.length_map, Content.queued, number_length]
  have size : Model.installedSize (modelOf content).installed = extent content.segments := installed_size wide
  have segments : (modelOf content).installed.length = content.segments.length := List.length_map _
  rw [Model.status, counted, installed, pending, size, segments, wal_size]
  rfl

end Reads

section Answers
variable {content : Content} {act : Act} {v v' : View} {result : Except Error Answer}

/-- The answer of the abstract database, or an errno that changes nothing. -/
def Performs (v : View) (act : Act) (result : Except Error Answer) (v' : View) : Prop :=
  (modelOf v.content).perform v.position act = (result, modelOf v'.content, v'.position) ∨
    ∃ code, result = .error (.errno code) ∧ v' = v

theorem append_refuses {records : List Record} {scratchSize : Nat} {error : Error}
    (refused : appendRefusal content records scratchSize = some error) :
    (∃ code, error = .errno code) ∨ (modelOf content).append records scratchSize = (.error error, modelOf content) := by
  have fits := content.fits
  rw [Model.append, wal_size, encodedSize]
  simp only [appendRefusal, ← disordered_iff] at refused
  split at refused
  · cases refused
    exact .inl ⟨_, rfl⟩
  rename_i count
  rw [if_neg count]
  split at refused
  · rename_i small
    cases refused
    exact .inr (if_pos small)
  rename_i large
  rw [if_neg large]
  split at refused
  · rename_i late
    cases refused
    exact .inr (if_pos late)
  rename_i order
  rw [if_neg order]
  split at refused
  · rename_i full
    cases refused
    exact .inr (if_pos (by simp only [Content.walEnd] at full ⊢; omega))
  split at refused
  · cases refused
    exact .inl ⟨_, rfl⟩
  · cases refused

theorem checkpoint_refuses {m : Reader.Manifests} {scratchSize : Nat} {error : Error} (wide : Wide content)
    (refused : checkpointRefusal content m scratchSize = some error) :
    (∃ code, error = .errno code) ∨ (modelOf content).checkpoint scratchSize = (.error error, modelOf content) := by
  have installed : Model.installedSize (modelOf content).installed = extent content.segments := installed_size wide
  have pending : batchesSize (modelOf content).pending = framesSize content.pending := size_numbered _ _
  have room := content.room
  rw [Model.checkpoint]
  simp only [checkpointRefusal, ← pending_nil] at refused
  split at refused
  · rename_i small
    cases refused
    exact .inr (if_pos small)
  rename_i large
  rw [if_neg large]
  split at refused
  · cases refused
  rename_i occupied
  rw [if_neg occupied]
  split at refused
  · cases refused
    exact .inl ⟨_, rfl⟩
  split at refused
  · rename_i full
    cases refused
    refine .inr (if_pos ?_)
    simp only [Model.installedSize, List.map_append, List.sum_append, List.map_cons, List.map_nil, List.sum_cons, List.sum_nil] at installed ⊢
    rw [installed, pending]
    simp only [Content.dataEnd] at full
    omega
  · cases refused

theorem expire_refuses {m : Reader.Manifests} {cutoff scratchSize : Nat} {error : Error} (honest : Honest content) (wide : Wide content)
    (refused : expireRefusal content m cutoff scratchSize = some error) :
    (∃ code, error = .errno code) ∨
      (modelOf content).expireBefore cutoff scratchSize = (.error error, modelOf content) := by
  have survivors := survivors_kept honest cutoff
  have installed : Model.installedSize (modelOf content).installed = extent content.segments := installed_size wide
  have kept : Model.installedSize ((modelOf content).survivors cutoff) = extent (content.kept cutoff) := by
    rw [survivors]
    exact installed_size fun segment member => wide segment (List.mem_filter.mp member).1
  have room := content.room
  rw [Model.expireBefore, installed, kept, survivors, List.length_map]
  simp only [expireRefusal] at refused
  split at refused
  · rename_i small
    cases refused
    exact .inr (if_pos small)
  rename_i large
  rw [if_neg large]
  split at refused
  · cases refused
  rename_i some
  rw [if_neg (by rwa [modelOf, List.length_map])]
  split at refused
  · rename_i full
    cases refused
    exact .inr (if_pos (by simp only [Content.dataEnd] at full; omega))
  split at refused
  · cases refused
    exact .inl ⟨_, rfl⟩
  · cases refused

-- A writing call that is refused changes nothing.
theorem refused_performs {error : Error} {answer : Except Error Answer × Model}
    (performs : (modelOf v.content).perform v.position act = (answer.1, answer.2, v.position))
    (refuses : (∃ code, error = .errno code) ∨ answer = (.error error, modelOf v.content)) : Performs v act (.error error) v := by
  rcases refuses with ⟨code, rfl⟩ | same
  · exact .inr ⟨code, rfl, rfl⟩
  · rw [same] at performs
    exact .inl performs

/-- Every call answers as the abstract database does: one case for each answer. -/
theorem answers_performs (honest : Honest v.content) (regular : Regular v.content) (answers : Answers act v result v') :
    Performs v act result v' := by
  have wide := regular.wide
  cases answers with
  | busy mode scratchSize v => exact .inl rfl
  | appendRefused records scratchSize v error refused => exact refused_performs rfl (append_refuses refused)
  | append batch scratchSize v accepted none =>
      have agrees := append_agrees accepted.more (.append batch scratchSize v accepted none)
      exact .inl (by rw [Model.perform, agrees])
  | checkpointRefused scratchSize v error refused => exact refused_performs rfl (checkpoint_refuses wide refused)
  | checkpointNothing scratchSize v accepted empty =>
      have nothing : (modelOf v.content).checkpoint scratchSize = (.ok .none, modelOf v.content) := by
        rw [Model.checkpoint, if_neg (Nat.not_lt.mpr (checkpoint_large accepted)), if_pos (pending_nil.mpr empty)]
      exact .inl (by rw [Model.perform, nothing])
  | checkpoint scratchSize v accepted some space =>
      have installs : (modelOf v.content).checkpoint scratchSize = (.ok .none, modelOf (v.content.checkpoint some space)) := by
        rw [Model.checkpoint, if_neg (Nat.not_lt.mpr (checkpoint_large accepted)), if_neg (by rwa [pending_nil]),
          if_neg (Nat.not_lt.mpr (checkpoint_fits wide space)), model_checkpoint]
      exact .inl (by rw [Model.perform, installs])
  | expireRefused cutoff scratchSize v error refused => exact refused_performs rfl (expire_refuses honest wide refused)
  | expireNothing cutoff scratchSize v accepted all =>
      have kept : ((modelOf v.content).survivors cutoff).length = (modelOf v.content).installed.length := by
        rw [survivors_kept honest, List.length_map, all, modelOf, List.length_map]
      have nothing : (modelOf v.content).expireBefore cutoff scratchSize = (.ok .none, modelOf v.content) := by
        rw [Model.expireBefore, if_neg (Nat.not_lt.mpr (expire_large accepted)), if_pos kept]
      exact .inl (by rw [Model.perform, nothing])
  | expire cutoff scratchSize revision v accepted some low high =>
      have agrees := expire_agrees wide honest (expire_bounds accepted some).2
        (.expire cutoff scratchSize revision v accepted some low high)
      exact .inl (by rw [Model.perform, agrees])
  | nextSmall capacity scratchSize v small =>
      exact .inl (by rw [Model.perform, Model.next, if_pos small])
  | nextEnd capacity scratchSize v large none =>
      exact .inl (by rw [Model.perform, Model.next, if_neg (Nat.not_lt.mpr large), ahead_due, none]; rfl)
  | nextShort capacity scratchSize v sequence batch later large first short =>
      refine .inl ?_
      rw [Model.perform, Model.next, if_neg (Nat.not_lt.mpr large), ahead_due, first]
      simp only [List.map_cons, List.head?_cons, shown, if_pos short]
  | next capacity scratchSize v sequence batch later large first fits =>
      refine .inl ?_
      rw [Model.perform, Model.next, if_neg (Nat.not_lt.mpr large), ahead_due, first]
      simp only [List.map_cons, List.head?_cons, shown, if_neg (Nat.not_lt.mpr fits)]
  | rangeRefused range capacity scratchSize v error refused =>
      exact .inl (by rw [Model.perform, Model.nextRange, refused])
  | rangeEnd range capacity scratchSize v accepted late =>
      refine .inl ?_
      rw [Model.perform, Model.nextRange, accepted]
      simp only [hit_ahead, late regular.located, Option.map_none]
  | rangeShort range capacity scratchSize v item accepted found small =>
      refine .inl ?_
      have short : capacity < (Model.matching range (shown item)).length := small
      rw [Model.perform, Model.nextRange, accepted]
      simp only [hit_ahead, found, Option.map_some, if_pos short]
  | range range capacity scratchSize v item accepted found fits =>
      refine .inl ?_
      have room : ¬ capacity < (Model.matching range (shown item)).length := Nat.not_lt.mpr fits
      rw [Model.perform, Model.nextRange, accepted]
      simp only [hit_ahead, found, Option.map_some, if_neg room]
      rfl
  | seekSmall from_us scratchSize v small => exact .inl (by rw [Model.perform, Model.seek, if_pos small])
  | seek from_us scratchSize v item large found =>
      refine .inl ?_
      rw [Model.perform, Model.seek, if_neg (Nat.not_lt.mpr large), sought_listed, found]
      rfl
  | seekEnd from_us scratchSize v large none =>
      refine .inl ?_
      rw [Model.perform, Model.seek, if_neg (Nat.not_lt.mpr large), sought_listed, none]
      rfl
  | aggregate range scratchSize v answer exact_ =>
      exact .inl (by rw [Model.perform, aggregate_agrees, exact_ regular.located])
  | rewind v => exact .inl rfl
  | status v => exact .inl (by rw [Model.perform, status_agrees wide])

end Answers

section Simulating
variable {host host' : Host} {identity : Bytes} {act : Act} {model : Model}

/-- A content that shows one of these databases. -/
def Showing (possible : Model → Prop) (content : Content) : Prop := Honest content ∧ Regular content ∧ possible (modelOf content)

/-- How a host stands for the abstract database. -/
inductive Represents (identity : Bytes) (host : Host) : Ideal → Prop where
  | live {v : View} (holding : Holding host identity v) (regular : Regular v.content) :
      Represents identity host (.live (modelOf v.content) v.position)
  | down {possible : Model → Prop} (unready : Unready host.db) (sized : identity.length = 16)
      (safe : Safe (Leaves (Showing possible) identity) host.store) : Represents identity host (.down possible)

-- Everything that a call on an open handle can come to.
theorem live_exec {v : View} (holding : Holding host identity v) (regular : Regular v.content) (other : act ≠ .close)
    {outcome : Option (Except Error Answer × Batches)} {last : Store}
    (execution : Exec device (act.perform host.db) host.store outcome last) :
    Safe (Leaves (Showing (after act (modelOf v.content))) identity) last ∧ ∀ result db, outcome = some (result, db) →
      (∃ v', Holding ⟨last, db⟩ identity v' ∧ Regular v'.content ∧ Answers act v result v') ∨
      (∃ code, result = .error (.errno code) ∧ (⟨last, db⟩ : Host) = host) ∨
      ∃ code, result = .error (.errno code) ∧ db.failed = true := by
  have holds : Showing (after act (modelOf v.content)) v.content := ⟨holding.honest, regular, .inl rfl⟩
  have takes : ∀ content', Effect act v.content content' → Showing (after act (modelOf v.content)) content' := fun content' effect => by
    obtain ⟨honest', regular', takes⟩ := effect_takes holding.honest regular effect
    exact ⟨honest', regular', .inr takes⟩
  obtain ⟨value, v', db', last', performs, answers, live⟩ :=
    @live_performs (Showing (after act (modelOf v.content))) host.store host.db identity v act holding.live holding.honest holds takes other
  obtain ⟨safe, results⟩ := performs.2 _ _ execution
  refine ⟨safe, fun result db found => ?_⟩
  rcases results _ found with ⟨same, ended⟩ | ⟨code, same, ended⟩ | ⟨code, db'', same, poisoned⟩
  · cases same
    have kept : Honest v'.content ∧ Regular v'.content := by
      rcases answers_effect answers with still | effect
      · rw [still]
        exact ⟨holding.honest, regular⟩
      · exact ⟨honest_effect holding.honest effect, regular_effect regular effect⟩
    rw [ended]
    exact .inl ⟨v', ⟨live, kept.1⟩, kept.2, answers⟩
  · cases same
    rw [ended]
    exact .inr (.inl ⟨code, rfl, rfl⟩)
  · cases same
    exact .inr (.inr ⟨code, rfl, poisoned⟩)

theorem down_live {v : View} (unready : Unready host.db) (live : Live host.store host.db identity v.content v.m v.position) : False := by
  obtain ⟨error, refused⟩ := unready_error unready
  cases refused.symm.trans live.settled.serving.batch_ready

/-- The abstract database follows every step. -/
theorem step_refines : Simulates System.Step Ideal.Step (Represents identity) := by
  intro host event host' ideal represents step
  cases represents with
  | @live v holding regular =>
      have shown : Showing (fun model => model = modelOf v.content) v.content := ⟨holding.honest, regular, rfl⟩
      have sized := holding.live.settled.wide
      have closes : ∀ {outcome : Option (Except Error Answer × Batches)} {last : Store},
          Exec device (Act.close.perform host.db) host.store outcome last → last = host.store := by
        intro outcome last execution
        obtain ⟨inner, inside, _⟩ := exec_answering execution
        exact (quits_close host.db host.store _ _ inside).1
      have cut : ∀ {act : Act} {last : Store}, Exec device (act.perform host.db) host.store none last →
          Safe (Leaves (Showing (after act (modelOf v.content))) identity) last := by
        intro act last execution
        by_cases close : act = .close
        · subst close
          rw [closes execution]
          exact live_safe holding.live ⟨holding.honest, regular, .inl rfl⟩
        · exact (live_exec holding regular close execution).1
      cases step with
      | @returned act result db store execution =>
          by_cases close : act = .close
          · subst close
            obtain ⟨inner, inside, shape⟩ := exec_answering execution
            cases inner with
            | none => cases shape
            | some value =>
                obtain ⟨same, results⟩ := quits_close host.db host.store _ _ inside
                have handle : db = value.2 := congrArg Prod.snd (Option.some.inj shape)
                refine ⟨_, .closed, .down ?_ sized ?_⟩
                · rcases results value rfl with fresh | ⟨_, bare⟩
                  · rw [handle, fresh]
                    exact .inl rfl
                  · exact absurd bare (by simp [holding.live.settled.tracks.wal])
                · rw [same]
                  exact live_safe holding.live shown
          · obtain ⟨safe, results⟩ := live_exec holding regular close execution
            rcases results _ _ rfl with ⟨v', holding', regular', answers⟩ | ⟨code, rfl, same⟩ | ⟨code, rfl, poisoned⟩
            · rcases answers_performs holding.honest regular answers with performs | ⟨code, rfl, rfl⟩
              · exact ⟨_, .answered close performs, .live holding' regular'⟩
              · exact ⟨_, .failed, .live holding' regular'⟩
            · rw [same]
              exact ⟨_, .failed, .live holding regular⟩
            · exact ⟨_, .uncertain, .down (.inr poisoned) sized safe⟩
      | restarted execution => exact ⟨_, .restarted, .down (.inl rfl) sized (cut execution)⟩
      | crashed execution survives => exact ⟨_, .crashed, .down (.inl rfl) sized (booted_safe (cut execution) survives)⟩
  | @down possible unready sized safe =>
      have sound : Sound (Showing possible) identity host := .down unready sized safe
      have keeps : ∀ act, Keeps (Showing possible) identity host act := fun act v _ live => (down_live unready live).elim
      have honest : ∀ content, Showing possible content → Honest content := fun content showing => showing.1
      cases step with
      | @returned act result db store execution =>
          have cases_ := @returned_cases (Showing possible) identity host ⟨store, db⟩ act result sound honest (keeps act) execution
          cases cases_ with
          | answered v v' holds holds' live => exact (down_live unready live).elim
          | failed v code holds live => exact (down_live unready live).elim
          | poisoned v code holds live => exact (down_live unready live).elim
          | closed close same unready' =>
              subst close
              refine ⟨_, .unheld, .down unready' sized ?_⟩
              rw [same]
              exact safe
          | opened v mode scratchSize reopened _ holds start success live =>
              subst reopened success
              refine ⟨.live (modelOf v.content) 1, .opened holds.2.2, ?_⟩
              rw [← start]
              exact .live ⟨live, holds.1⟩ holds.2.1
          | refused error _ refusal same safe' =>
              subst refusal
              refine ⟨_, .unopened, .down ?_ sized safe'⟩
              rw [same]
              exact unready
      | restarted execution =>
          exact ⟨_, .rerestarted, .down (.inl rfl) sized (interrupted_safe sound honest (keeps _) execution)⟩
      | crashed execution survives =>
          exact ⟨_, .recrashed, .down (.inl rfl) sized (booted_safe (interrupted_safe sound honest (keeps _) execution) survives)⟩

theorem run_runs {events : List System.Event} (run : Run host events host') : Runs System.Step host events host' := by
  induction run with
  | start => exact .start _
  | step _ after ih => exact .step ih after

/-- What the handle of the host shows, from its reader on and as a whole, or what any open that succeeds will. -/
def Shows (host : Host) : Ideal → Prop
  | .live model position => batchReady host.db = .ok () ∧ Yields host (model.ahead position) ∧ Exposes host model.items
  | .down possible => Unready host.db ∧ ∀ next, Resumed host.store next → ∀ mode scratchSize db store,
      Exec device (Act.perform next.db (.openPair mode scratchSize)) next.store (some (.ok .none, db)) store →
        ∃ model, possible model ∧ Exposes ⟨store, db⟩ model.items

theorem opened_live {possible : Model → Prop} {mode : OpenMode} {scratchSize : Nat} {ideal : Ideal}
    (step : Ideal.Step (.down possible) (.returned (.openPair mode scratchSize) (.ok .none)) ideal) :
    ∃ model, possible model ∧ ideal = .live model 1 := by
  cases step with
  | opened held => exact ⟨_, held, rfl⟩

theorem represents_shows {ideal : Ideal} (represents : Represents identity host ideal) : Shows host ideal := by
  cases represents with
  | live holding regular =>
      refine ⟨holding.live.settled.serving.batch_ready, ?_, ?_⟩
      · rw [ahead_due]
        exact steady_yields holding.steady
      · rw [items_listed]
        exact holding_exposes holding
  | @down possible unready sized safe =>
      refine ⟨unready, fun next resumed mode scratchSize db store execution => ?_⟩
      obtain ⟨safe', fresh⟩ := resumed_safe safe resumed
      have down : Represents identity next (.down possible) := .down (by rw [fresh]; exact .inl rfl) sized safe'
      obtain ⟨ideal, step, there⟩ := step_refines _ _ _ _ down (.returned execution)
      obtain ⟨model, held, rfl⟩ := opened_live step
      generalize shape : Ideal.live model 1 = ideal at there
      cases there with
      | @live v holding regular =>
          rw [Ideal.live.injEq] at shape
          refine ⟨model, held, ?_⟩
          rw [shape.1, items_listed]
          exact holding_exposes holding
      | down => cases shape

/-- Every run since a creation, with whatever failures, restarts and crashes, is a run
of the abstract database with the same events, and shows what it holds. -/
theorem runs_refine {start host : Host} {events : List System.Event} (created : Created start) (run : Run start events host) :
    ∃ ideal, Runs Ideal.Step (.live .empty 1) events ideal ∧ Shows host ideal := by
  obtain ⟨identity, live⟩ := created_live created
  have first : Represents identity start (.live .empty 1) :=
    @Represents.live identity start ⟨.empty, createdManifests, 1⟩ ⟨live, honest_empty⟩ regular_empty
  obtain ⟨ideal, runs, there⟩ := runs_simulate step_refines (run_runs run) first
  exact ⟨ideal, runs, represents_shows there⟩

/-- An append succeeds, the next one fails at its first request, and power is cut; after an open, power is
cut in the middle of a checkpoint. -/
def failedHost : Host := (filled.spoil (.append [⟨1, 6, 8⟩] batchScratch) 0).2

def reopenedHost : Host := ((failedHost.reboot .close 0).call (.openPair .openExisting batchScratch)).2

def lastHost : Host := ((reopenedHost.reboot (.checkpoint batchScratch) 6).call (.openPair .openExisting batchScratch)).2

theorem runs_refine_reopened : ∃ ideal, Runs Ideal.Step (.live .empty 1)
    [.returned (.append [⟨1, 5, 7⟩] batchScratch) (.ok (.sequence 1)),
      .returned (.append [⟨1, 6, 8⟩] batchScratch) (.error (.errno .eio)), .crashed .close,
      .returned (.openPair .openExisting batchScratch) (.ok .none), .crashed (.checkpoint batchScratch),
      .returned (.openPair .openExisting batchScratch) (.ok .none),
      .returned (.aggregateRange ⟨0, 10, 0, 0⟩ batchScratch) (.ok (.aggregate ⟨1, 7, 7⟩))] ideal ∧
    Shows (lastHost.call (.aggregateRange ⟨0, 10, 0, 0⟩ batchScratch)).2 ideal := by
  have appended := call_step fresh (.append [⟨1, 5, 7⟩] batchScratch)
  have failed := spoil_step filled (.append [⟨1, 6, 8⟩] batchScratch) 0
  have opened := call_step (failedHost.reboot .close 0) (.openPair .openExisting batchScratch)
  have again := call_step (reopenedHost.reboot (.checkpoint batchScratch) 6) (.openPair .openExisting batchScratch)
  have read := call_step lastHost (.aggregateRange ⟨0, 10, 0, 0⟩ batchScratch)
  rw [show (fresh.call (.append [⟨1, 5, 7⟩] batchScratch)).1 = .ok (.sequence 1) by decide +kernel] at appended
  rw [show (filled.spoil (.append [⟨1, 6, 8⟩] batchScratch) 0).1 = .error (.errno .eio) by decide +kernel] at failed
  rw [show ((failedHost.reboot .close 0).call (.openPair .openExisting batchScratch)).1 = .ok .none by decide +kernel] at opened
  rw [show ((reopenedHost.reboot (.checkpoint batchScratch) 6).call (.openPair .openExisting batchScratch)).1 = .ok .none by
    decide +kernel] at again
  rw [show (lastHost.call (.aggregateRange ⟨0, 10, 0, 0⟩ batchScratch)).1 = .ok (.aggregate ⟨1, 7, 7⟩) by decide +kernel] at read
  have failure := Run.step (.step (.start fresh) appended) failed
  have restart := Run.step (.step failure (reboot_step failedHost .close 0)) opened
  have run := Run.step (.step (.step restart (reboot_step reopenedHost (.checkpoint batchScratch) 6)) again) read
  exact runs_refine fresh_created run

end Simulating

end Timelite.Refining
