import Timelite.Refining
import Timelite.Lowering

/-!
The policies of examples/continuous.c: an application that keeps appending while the
WAL and the database fill up. Its functions call the library and export records. The
backend fails any request, the process or the machine may stop at any point, and
nothing is deleted before it was exported.
-/
namespace Timelite.Policies
open ByteFile Program Durable Codec Backend BackendLaws Layout Contents Crashes Databases Calls Appending Retaining Cursor Expiring Seeking Ranging
  BatchApi Opening Creating Atomicity System Refinement Soundness Observing Interrupting Abstract Refining Simulation Lowering

/-- What the application asks: a call of the library, or that a record is exported. -/
inductive Ask where
  | call (act : Act)
  | export (sequence : Nat) (record : Record)

abbrev Told : Ask → Type
  | .call _ => Except Error Answer
  | .export _ _ => Unit

/-- A function of the application. Without a value the fuel of its loop is used up. -/
abbrev Client (α : Type) : Type := Prog Told (Option (Except Error α))

section Functions

def exportRecords (sequence : Nat) : List Record → Prog Told (Option Unit)
  | [] => .done (some ())
  | record :: rest => .ask (.export sequence record) fun _ => exportRecords sequence rest

-- The output of `timelite_batches_next_range`.
def batchOf : Answer → Nat × List Record
  | .batch sequence records => (sequence, records)
  | _ => (0, [])

def exportLoop (range : Range) (scratchSize : Nat) : (fuel : Nat) → Client Unit
  | 0 => .done none
  | fuel + 1 => .ask (.call (.nextRange range maxRecords scratchSize)) fun
    | .ok answer => (exportRecords (batchOf answer).1 (batchOf answer).2).bind (chain fun _ => exportLoop range scratchSize fuel)
    | .error error => .done (some (if error = .endOfData then .ok () else .error error))

def exportBeforeDelete (cutoff_us scratchSize fuel : Nat) : Client Unit :=
  .ask (.call (.seek 0 scratchSize)) fun
  | .ok _ => exportLoop ⟨0, cutoff_us, 0, 0⟩ scratchSize fuel
  | .error error => .done (some (if error = .endOfData then .ok () else .error error))

def checkpointWithPolicy (cutoff_us scratchSize fuel : Nat) : Client Unit :=
  .ask (.call (.checkpoint scratchSize)) fun
  | .ok _ => .done (some (.ok ()))
  | .error error =>
      if error ≠ .databaseFull then .done (some (.error error))
      else (exportBeforeDelete cutoff_us scratchSize fuel).bind (chain fun
        | .error error => .done (some (.error error))
        | .ok () => .ask (.call (.expireBefore cutoff_us scratchSize)) fun
          -- Retention also needs temporary copy room.
          | .error error => .done (some (.error error))
          | .ok _ => .ask (.call (.checkpoint scratchSize)) fun result => .done (some (result.map fun _ => ())))

def appendWithPolicy (records : List Record) (cutoff_us scratchSize fuel : Nat) : Client Nat :=
  .ask (.call (.append records scratchSize)) fun
  | .ok answer => .done (some (.ok (sequenceOf answer)))
  | .error error =>
      if error ≠ .walFull then .done (some (.error error))
      else (checkpointWithPolicy cutoff_us scratchSize fuel).bind (chain fun
        | .error error => .done (some (.error error))
        | .ok () => .ask (.call (.append records scratchSize)) fun result => .done (some (result.map sequenceOf)))

end Functions

section Courses
variable {α β : Type}

/-- The host that the application runs on, and the records it has exported. -/
structure Desk where
  host : Host
  exported : List (Nat × Record)

/-- What a function comes to: it returns, its fuel is used up, or the process or the machine stops. -/
inductive Outcome (α : Type) where
  | returned (value : Except Error α)
  | waiting
  | cut

/-- Every course of a function. Between two requests, and inside a call, it may be left
where it is, or the process or the machine stops there. -/
inductive Course {α : Type} : Client α → Desk → Outcome α → Desk → Prop where
  | returned (value : Except Error α) (desk : Desk) : Course (.done (some value)) desk (.returned value) desk
  | waiting (desk : Desk) : Course (.done none) desk .waiting desk
  | stopped (program : Client α) (desk : Desk) : Course program desk .cut desk
  | resumed (program : Client α) {desk : Desk} {host : Host} (resumed : Resumed desk.host.store host) :
      Course program desk .cut ⟨host, desk.exported⟩
  | exported {sequence : Nat} {record : Record} {next : Unit → Client α} {desk last : Desk} {outcome : Outcome α}
      (rest : Course (next ()) ⟨desk.host, desk.exported ++ [(sequence, record)]⟩ outcome last) :
      Course (.ask (.export sequence record) next) desk outcome last
  | called {act : Act} {next : Except Error Answer → Client α} {desk last : Desk} {host : Host} {result : Except Error Answer}
      {outcome : Outcome α} (step : System.Step desk.host (.returned act result) host)
      (rest : Course (next result) ⟨host, desk.exported⟩ outcome last) : Course (.ask (.call act) next) desk outcome last
  | restarted {act : Act} {next : Except Error Answer → Client α} {desk : Desk} {host : Host}
      (step : System.Step desk.host (.restarted act) host) : Course (.ask (.call act) next) desk .cut ⟨host, desk.exported⟩
  | crashed {act : Act} {next : Except Error Answer → Client α} {desk : Desk} {host : Host}
      (step : System.Step desk.host (.crashed act) host) : Course (.ask (.call act) next) desk .cut ⟨host, desk.exported⟩

/-- `cut` holds here, and of the host that goes on from these files. -/
def Halts (cut : Desk → Prop) (desk : Desk) : Prop :=
  cut desk ∧ ∀ host, Resumed desk.host.store host → cut ⟨host, desk.exported⟩

/-- Wherever the function is cut `cut` holds, where it returns `post`, and it uses up its
fuel only if `waits`. -/
def Ensures (cut : Desk → Prop) (waits : Prop) (post : Except Error α → Desk → Prop) (program : Client α) (desk : Desk) : Prop :=
  ∀ outcome last, Course program desk outcome last →
    (outcome = .cut → cut last) ∧ (outcome = .waiting → waits) ∧ ∀ value, outcome = .returned value → post value last

variable {cut : Desk → Prop} {waits : Prop} {post : Except Error α → Desk → Prop} {desk : Desk}

theorem ensures_done {value : Except Error α} (kept : Halts cut desk) (here : post value desk) :
    Ensures cut waits post (.done (some value)) desk := by
  intro outcome last course
  cases course with
  | returned => exact ⟨fun none => (by cases none), fun none => (by cases none), fun _ same => by cases same; exact here⟩
  | stopped => exact ⟨fun _ => kept.1, fun none => (by cases none), fun _ none => by cases none⟩
  | resumed _ resumed => exact ⟨fun _ => kept.2 _ resumed, fun none => (by cases none), fun _ none => by cases none⟩

theorem ensures_waiting (kept : Halts cut desk) (idle : waits) : Ensures cut waits post (.done none) desk := by
  intro outcome last course
  cases course with
  | waiting => exact ⟨fun none => (by cases none), fun _ => idle, fun _ none => by cases none⟩
  | stopped => exact ⟨fun _ => kept.1, fun none => (by cases none), fun _ none => by cases none⟩
  | resumed _ resumed => exact ⟨fun _ => kept.2 _ resumed, fun none => (by cases none), fun _ none => by cases none⟩

theorem ensures_call {act : Act} {next : Except Error Answer → Client α} (kept : Halts cut desk)
    (broken : ∀ event host, System.Step desk.host event host → event = .restarted act ∨ event = .crashed act → cut ⟨host, desk.exported⟩)
    (rest : ∀ result host, System.Step desk.host (.returned act result) host →
      Ensures cut waits post (next result) ⟨host, desk.exported⟩) : Ensures cut waits post (.ask (.call act) next) desk := by
  intro outcome last course
  cases course with
  | stopped => exact ⟨fun _ => kept.1, fun none => (by cases none), fun _ none => by cases none⟩
  | resumed _ resumed => exact ⟨fun _ => kept.2 _ resumed, fun none => (by cases none), fun _ none => by cases none⟩
  | called step later => exact rest _ _ step _ _ later
  | restarted step => exact ⟨fun _ => broken _ _ step (.inl rfl), fun none => (by cases none), fun _ none => by cases none⟩
  | crashed step => exact ⟨fun _ => broken _ _ step (.inr rfl), fun none => (by cases none), fun _ none => by cases none⟩

-- It may also be cut where it has ended.
theorem course_stopped {program : Client α} {outcome : Outcome α} {last : Desk} (course : Course program desk outcome last) :
    Course program desk .cut last := by
  induction course with
  | returned value desk => exact .stopped _ _
  | waiting desk => exact .stopped _ _
  | stopped program desk => exact .stopped _ _
  | resumed program resumed => exact .resumed _ resumed
  | exported rest ih => exact .exported ih
  | called step rest ih => exact .called step ih
  | restarted step => exact .restarted step
  | crashed step => exact .crashed step

theorem course_bind {program : Client β} {next : Except Error β → Client α} {outcome : Outcome α} {last : Desk}
    (course : Course (program.bind (chain next)) desk outcome last) :
    (outcome = .cut ∧ Course program desk .cut last) ∨ (outcome = .waiting ∧ Course program desk .waiting last) ∨
      ∃ value middle, Course program desk (.returned value) middle ∧ Course (next value) middle outcome last := by
  induction program generalizing desk with
  | done value =>
      cases value with
      | none =>
          cases course with
          | waiting => exact .inr (.inl ⟨rfl, .waiting _⟩)
          | stopped => exact .inl ⟨rfl, .stopped _ _⟩
          | resumed _ resumed => exact .inl ⟨rfl, .resumed _ resumed⟩
      | some value => exact .inr (.inr ⟨value, desk, .returned value desk, course⟩)
  | ask request rest ih =>
      cases course with
      | stopped => exact .inl ⟨rfl, .stopped _ _⟩
      | resumed _ resumed => exact .inl ⟨rfl, .resumed _ resumed⟩
      | exported later =>
          rcases ih _ later with ⟨same, inside⟩ | ⟨same, inside⟩ | ⟨value, middle, front, back⟩
          · exact .inl ⟨same, .exported inside⟩
          · exact .inr (.inl ⟨same, .exported inside⟩)
          · exact .inr (.inr ⟨value, middle, .exported front, back⟩)
      | called step later =>
          rcases ih _ later with ⟨same, inside⟩ | ⟨same, inside⟩ | ⟨value, middle, front, back⟩
          · exact .inl ⟨same, .called step inside⟩
          · exact .inr (.inl ⟨same, .called step inside⟩)
          · exact .inr (.inr ⟨value, middle, .called step front, back⟩)
      | restarted step => exact .inl ⟨rfl, .restarted step⟩
      | crashed step => exact .inl ⟨rfl, .crashed step⟩

theorem ensures_bind {post' : Except Error β → Desk → Prop} {program : Client β} {next : Except Error β → Client α}
    (first : Ensures cut waits post' program desk)
    (rest : ∀ value middle, post' value middle → Ensures cut waits post (next value) middle) :
    Ensures cut waits post (program.bind (chain next)) desk := by
  intro outcome last course
  rcases course_bind course with ⟨rfl, inside⟩ | ⟨rfl, inside⟩ | ⟨value, middle, front, back⟩
  · exact ⟨fun _ => (first _ _ inside).1 rfl, fun none => (by cases none), fun _ none => by cases none⟩
  · exact ⟨fun none => (by cases none), fun _ => (first _ _ inside).2.1 rfl, fun _ none => by cases none⟩
  · exact rest value middle ((first _ _ front).2.2 value rfl) outcome last back

theorem ensures_exports {sequence : Nat} {records : List Record} {next : Unit → Client α}
    (kept : ∀ more, Halts cut ⟨desk.host, desk.exported ++ more⟩)
    (rest : Ensures cut waits post (next ()) ⟨desk.host, desk.exported ++ records.map fun record => (sequence, record)⟩) :
    Ensures cut waits post ((exportRecords sequence records).bind (chain next)) desk := by
  induction records generalizing desk with
  | nil =>
      rw [List.map_nil, List.append_nil] at rest
      exact rest
  | cons record later ih =>
      intro outcome last course
      have here := kept []
      rw [List.append_nil] at here
      cases course with
      | stopped => exact ⟨fun _ => here.1, fun none => (by cases none), fun _ none => by cases none⟩
      | resumed _ resumed => exact ⟨fun _ => here.2 _ resumed, fun none => (by cases none), fun _ none => by cases none⟩
      | exported course =>
          refine @ih ⟨desk.host, desk.exported ++ [(sequence, record)]⟩ (fun more => ?_) ?_ outcome last course
          · have later := kept ((sequence, record) :: more)
            rwa [List.append_cons] at later
          · rwa [List.map_cons, List.append_cons] at rest

theorem ensures_mono {weaker : Except Error α → Desk → Prop} {program : Client α} (ensures : Ensures cut waits post program desk)
    (implied : ∀ value last, post value last → weaker value last) : Ensures cut waits weaker program desk := fun outcome last course =>
  ⟨(ensures outcome last course).1, (ensures outcome last course).2.1,
    fun value same => implied value last ((ensures outcome last course).2.2 value same)⟩

theorem ensures_waits {waits' : Prop} {program : Client α} (ensures : Ensures cut waits post program desk)
    (implied : waits → waits') : Ensures cut waits' post program desk := fun outcome last course =>
  ⟨(ensures outcome last course).1, fun same => implied ((ensures outcome last course).2.1 same), (ensures outcome last course).2.2⟩

end Courses

section Keeping
variable {α : Type} {identity : Bytes} {items : List Item} {records : List Record} {desk : Desk} {v v' : View} {waits : Prop}

/-- What is left of the batches, and that the others were exported. -/
structure Kept (items : List Item) (exported : List (Nat × Record)) (left : List Item) : Prop where
  sublist : left.Sublist items
  told : ∀ item ∈ items, item ∉ left → ∀ record ∈ item.2, (item.1, record) ∈ exported

theorem Kept.more {exported more : List (Nat × Record)} {left : List Item} (kept : Kept items exported left) :
    Kept items (exported ++ more) left :=
  ⟨kept.sublist, fun item among gone record inside => List.mem_append_left _ (kept.told item among gone record inside)⟩

/-- A database that has lost only exported batches, and has gained the new one at most once. -/
def Shape (items : List Item) (records : List Record) (exported : List (Nat × Record)) (model : Model) : Prop :=
  ∃ left, Kept items exported left ∧ (Model.items model = left ∨ ∃ sequence, Model.items model = left ++ [(sequence, records)])

/-- The abstract databases that an ideal one may be. -/
def Allows : Ideal → Model → Prop
  | .live model _, model' => model' = model
  | .down possible, model' => possible model'

/-- Whatever is found on the files later. -/
def Accounted (identity : Bytes) (items : List Item) (records : List Record) (desk : Desk) : Prop :=
  ∃ ideal, Represents identity desk.host ideal ∧ ∀ model, Allows ideal model → Shape items records desk.exported model

/-- The handle is open and sequence numbers are left. -/
structure Working (identity : Bytes) (items : List Item) (desk : Desk) (v : View) : Prop where
  holding : Holding desk.host identity v
  regular : Regular v.content
  unused : v.content.high < uint64Max
  kept : Kept items desk.exported (listed v.content)

/-- What a function is told: an error leaves the files accounted for. -/
def Ends (identity : Bytes) (items : List Item) (records : List Record) (good : α → Desk → Prop) :
    Except Error α → Desk → Prop
  | .ok value, desk => good value desk
  | .error _, desk => Accounted identity items records desk

theorem working_accounted (working : Working identity items desk v) : Accounted identity items records desk := by
  refine ⟨_, .live working.holding working.regular, fun model same => ?_⟩
  rw [show model = modelOf v.content from same]
  exact ⟨listed v.content, working.kept, .inl (items_listed v.content)⟩

-- The next open finds no other database than this handle would.
theorem accounted_resumed {host : Host} (accounted : Accounted identity items records desk)
    (resumed : Resumed desk.host.store host) : Accounted identity items records ⟨host, desk.exported⟩ := by
  obtain ⟨ideal, represents, shape⟩ := accounted
  cases represents with
  | @live v holding regular =>
      have shown : Showing (fun model => model = modelOf v.content) v.content := ⟨holding.honest, regular, rfl⟩
      obtain ⟨safe, fresh⟩ := resumed_safe (live_safe holding.live shown) resumed
      exact ⟨_, .down (by rw [fresh]; exact .inl rfl) holding.live.settled.wide safe, shape⟩
  | down unready sized safe =>
      obtain ⟨safe', fresh⟩ := resumed_safe safe resumed
      exact ⟨_, .down (by rw [fresh]; exact .inl rfl) sized safe', shape⟩

theorem accounted_halts (accounted : Accounted identity items records desk) : Halts (Accounted identity items records) desk :=
  ⟨accounted, fun _ => accounted_resumed accounted⟩

theorem working_halts (working : Working identity items desk v) : Halts (Accounted identity items records) desk :=
  accounted_halts (working_accounted working)

/-- A call on the open handle: what it makes of the database must be accounted for. -/
theorem ensures_act {act : Act} {next : Except Error Answer → Client α} {good : α → Desk → Prop}
    (working : Working identity items desk v) (other : act ≠ .close)
    (takes : ∀ model, Takes act (modelOf v.content) model → Shape items records desk.exported model)
    (rest : ∀ result host v', Answers act v result v' → Holding host identity v' → Regular v'.content →
      Ensures (Accounted identity items records) waits (Ends identity items records good) (next result) ⟨host, desk.exported⟩)
    (fails : ∀ code, next (.error (.errno code)) = .done (some (.error (.errno code)))) :
    Ensures (Accounted identity items records) waits (Ends identity items records good) (.ask (.call act) next) desk := by
  have shape : ∀ model, after act (modelOf v.content) model → Shape items records desk.exported model := by
    rintro model (rfl | taken)
    · exact ⟨listed v.content, working.kept, .inl (items_listed v.content)⟩
    · exact takes model taken
  refine ensures_call (working_halts working) (fun event host step broken => ?_) fun result host step => ?_
  · obtain ⟨ideal, moved, represents⟩ := step_refines _ _ _ _ (.live working.holding working.regular) step
    rcases broken with rfl | rfl
    · cases moved with
      | restarted => exact ⟨_, represents, shape⟩
    · cases moved with
      | crashed => exact ⟨_, represents, shape⟩
  · have failed : ∀ code, Accounted identity items records ⟨host, desk.exported⟩ →
        Ensures (Accounted identity items records) waits (Ends identity items records good) (next (.error (.errno code)))
          ⟨host, desk.exported⟩ := fun code accounted => by
      rw [fails code]
      exact ensures_done (accounted_halts accounted) accounted
    cases step with
    | returned execution =>
        obtain ⟨safe, results⟩ := live_exec working.holding working.regular other execution
        rcases results _ _ rfl with ⟨v', holding', regular', answers⟩ | ⟨code, rfl, same⟩ | ⟨code, rfl, poisoned⟩
        · exact rest _ _ v' answers holding' regular'
        · rw [same] at failed ⊢
          exact failed code (working_accounted working)
        · exact failed code ⟨_, .down (.inr poisoned) working.holding.live.settled.wide safe, shape⟩

section Exporting
variable {cutoff scratchSize fuel : Nat}

/-- The records before the cutoff of the batches before a position are exported. -/
def Covers (cutoff position : Nat) (exported : List (Nat × Record)) (batches : List Item) : Prop :=
  ∀ item ∈ batches, item.1 < position → ∀ record ∈ item.2, record.timestamp.toNat < cutoff → (item.1, record) ∈ exported

/-- All records before the cutoff are exported. -/
def Exported (cutoff : Nat) (exported : List (Nat × Record)) (batches : List Item) : Prop :=
  ∀ item ∈ batches, ∀ record ∈ item.2, record.timestamp.toNat < cutoff → (item.1, record) ∈ exported

/-- What an export that returns 0 leaves: an open handle on the same batches, all exported. -/
def Done (identity : Bytes) (items : List Item) (cutoff : Nat) (before : View) (desk : Desk) : Prop :=
  ∃ v, Working identity items desk v ∧ v.content = before.content ∧ Exported cutoff desk.exported (listed v.content)

theorem in_window {record : Record} : inRange ⟨0, cutoff, 0, 0⟩ record = true ↔ record.timestamp.toNat < cutoff := by
  simp [inRange]

-- A batch without a hit has no record before the cutoff.
theorem missed_window {item : Nat × Batch} (missed : hasHit ⟨0, cutoff, 0, 0⟩ item = false) :
    ∀ record ∈ item.2.records, ¬ record.timestamp.toNat < cutoff := by
  intro record inside early
  have hit : record ∈ hits ⟨0, cutoff, 0, 0⟩ item.2 := List.mem_filter.mpr ⟨inside, in_window.mpr early⟩
  have none : hits ⟨0, cutoff, 0, 0⟩ item.2 = [] := by
    rw [hasHit, Bool.not_eq_false'] at missed
    exact List.isEmpty_iff.mp missed
  rw [none] at hit
  cases hit

-- The batches up to the one that is found.
theorem covers_found {content : Content} {position : Nat} {exported : List (Nat × Record)} {item : Nat × Batch}
    (covers : Covers cutoff position exported (listed content))
    (found : (due content position).find? (hasHit ⟨0, cutoff, 0, 0⟩) = some item) :
    Covers cutoff (item.1 + 1)
      (exported ++ (hits ⟨0, cutoff, 0, 0⟩ item.2).map fun record => (item.1, record)) (listed content) := by
  obtain ⟨hit, front, back, split, earlier⟩ := List.find?_eq_some_iff_append.mp found
  have order := (exposed_increasing content).filter fun item => decide (position ≤ item.1)
  intro other inside before record among early
  by_cases passed : other.1 < position
  · exact List.mem_append_left _ (covers other inside passed record among early)
  · obtain ⟨inner, exposed, rfl⟩ := List.mem_map.mp inside
    have ahead : inner ∈ due content position := List.mem_filter.mpr ⟨exposed, decide_eq_true (Nat.le_of_not_lt passed)⟩
    change (due content position).Pairwise _ at order
    rw [split] at ahead order
    rcases List.mem_append.mp ahead with missed | rest
    · refine absurd early (missed_window ?_ record among)
      simpa using earlier inner missed
    rcases List.mem_cons.mp rest with rfl | late
    · exact List.mem_append_right _ (List.mem_map.mpr ⟨record, List.mem_filter.mpr ⟨among, in_window.mpr early⟩, rfl⟩)
    · have above := (List.pairwise_cons.mp (List.pairwise_append.mp order).2.1).1 inner late
      have below : inner.1 < item.1 + 1 := before
      omega

theorem covers_end {content : Content} {position : Nat} {exported : List (Nat × Record)}
    (covers : Covers cutoff position exported (listed content))
    (none : (due content position).find? (hasHit ⟨0, cutoff, 0, 0⟩) = none) : Exported cutoff exported (listed content) := by
  intro other inside record among early
  by_cases passed : other.1 < position
  · exact covers other inside passed record among early
  · obtain ⟨inner, exposed, rfl⟩ := List.mem_map.mp inside
    have ahead : inner ∈ due content position := List.mem_filter.mpr ⟨exposed, decide_eq_true (Nat.le_of_not_lt passed)⟩
    have missed := List.find?_eq_none.mp none inner ahead
    exact absurd early (missed_window (by simpa using missed) record among)

-- Fewer batches are due behind the one that is found.
theorem due_shorter {content : Content} {position : Nat} {item : Nat × Batch} {range : Range}
    (found : (due content position).find? (hasHit range) = some item) :
    (due content (item.1 + 1)).length < (due content position).length := by
  have ahead := List.mem_of_find?_eq_some found
  have above : position ≤ item.1 := of_decide_eq_true (List.mem_filter.mp ahead).2
  have later : due content (item.1 + 1) = (due content position).filter fun other => decide (item.1 + 1 ≤ other.1) := by
    rw [due, due, List.filter_filter]
    refine List.filter_congr fun other _ => ?_
    simp only [← Bool.decide_and, decide_eq_decide]
    omega
  rw [later]
  refine lt_of_le_of_ne (List.length_filter_le _ _) fun same => ?_
  have all := List.length_filter_eq_length_iff.mp same item ahead
  simp at all

-- A call that only reads, on the same batches.
theorem working_read {act : Act} {result : Except Error Answer} {host : Host} {more : List (Nat × Record)}
    (working : Working identity items desk v) (quiet : ∀ content content', ¬ Effect act content content')
    (answers : Answers act v result v') (holding : Holding host identity v') (regular : Regular v'.content) :
    Working identity items ⟨host, desk.exported ++ more⟩ v' ∧ v'.content = v.content := by
  have same : v'.content = v.content := (answers_effect answers).elim id fun effect => absurd effect (quiet _ _)
  refine ⟨⟨holding, regular, ?_, ?_⟩, same⟩
  · rw [same]
    exact working.unused
  · rw [same]
    exact working.kept.more

theorem window_end {scratchSize : Nat} (working : Working identity items desk v)
    (covers : Covers cutoff v.position desk.exported (listed v.content))
    (answers : Answers (.nextRange ⟨0, cutoff, 0, 0⟩ maxRecords scratchSize) v (.error .endOfData) v') :
    Exported cutoff desk.exported (listed v.content) := by
  generalize told : (.error .endOfData : Except Error Answer) = result at answers
  cases answers with
  | rangeRefused range capacity scratchSize v error refused =>
      -- An empty window.
      cases told
      have zero : cutoff = 0 := by
        simp only [rangeRefusal] at refused
        split at refused
        · cases refused
        split at refused
        · cases refused
        split at refused
        · rename_i same
          exact same.symm
        · cases refused
      intro item inside record among early
      omega
  | rangeEnd range capacity scratchSize v accepted late =>
      refine covers_end covers (late (.inl ?_))
      have unused := working.unused
      rw [Content.high] at unused
      omega
  | rangeShort => cases told
  | range => cases told

theorem export_loop (working : Working identity items desk v)
    (covers : Covers cutoff v.position desk.exported (listed v.content)) :
    Ensures (Accounted identity items records) (fuel ≤ (due v.content v.position).length)
      (Ends identity items records fun _ desk => Done identity items cutoff v desk)
      (exportLoop ⟨0, cutoff, 0, 0⟩ scratchSize fuel) desk := by
  induction fuel generalizing desk v with
  | zero => exact ensures_waiting (working_halts working) (Nat.zero_le _)
  | succ fuel ih =>
      refine ensures_act working (by simp) (fun _ takes => by cases takes) (fun result host v' answers holding regular => ?_)
        fun code => rfl
      have read : ∀ more, Working identity items ⟨host, desk.exported ++ more⟩ v' ∧ v'.content = v.content := fun more =>
        working_read working (fun _ _ effect => by cases effect) answers holding regular
      obtain ⟨working', same⟩ := read []
      rw [List.append_nil] at working'
      cases result with
      | error error =>
          refine ensures_done (working_halts working') ?_
          by_cases ended : error = .endOfData
          · subst ended
            have exported := window_end working covers answers
            rw [if_pos rfl]
            refine ⟨v', working', same, ?_⟩
            rw [same]
            exact exported
          · rw [if_neg ended]
            exact working_accounted working'
      | ok answer =>
          generalize told : (.ok answer : Except Error Answer) = result at answers
          cases answers with
          | range range capacity scratchSize v item accepted found fits =>
              cases told
              refine ensures_exports (fun more => working_halts (read more).1) ?_
              have rest := @ih ⟨host, desk.exported ++ (hits ⟨0, cutoff, 0, 0⟩ item.2).map fun record => (item.1, record)⟩
                { v with position := item.1 + 1 } (read _).1 (covers_found covers found)
              exact ensures_waits rest fun few => Nat.succ_le_of_lt (Nat.lt_of_le_of_lt few (due_shorter found))
          | rangeRefused => cases told
          | rangeEnd => cases told
          | rangeShort => cases told

-- Every batch reaches time zero.
theorem sought_zero (content : Content) : sought content 0 = content.exposed.head? := by
  rw [sought]
  cases content.exposed with
  | nil => rfl
  | cons item later =>
      rw [List.find?_cons_of_pos (by simp [reaches])]
      rfl

theorem seek_end {scratchSize : Nat} {exported : List (Nat × Record)}
    (answers : Answers (.seek 0 scratchSize) v (.error .endOfData) v') : Exported cutoff exported (listed v.content) := by
  generalize told : (.error .endOfData : Except Error Answer) = result at answers
  cases answers with
  | seekEnd from_us scratchSize v large none =>
      rw [sought_zero, List.head?_eq_none_iff] at none
      intro item inside
      rw [listed, none] at inside
      cases inside
  | seekSmall => cases told
  | seek => cases told

theorem seek_start {scratchSize : Nat} {answer : Answer} {exported : List (Nat × Record)}
    (answers : Answers (.seek 0 scratchSize) v (.ok answer) v') : Covers cutoff v'.position exported (listed v.content) := by
  generalize told : (.ok answer : Except Error Answer) = result at answers
  cases answers with
  | seek from_us scratchSize v first large found =>
      rw [sought_zero, List.head?_eq_some_iff] at found
      obtain ⟨later, split⟩ := found
      have order := exposed_increasing v.content
      rw [split] at order
      intro item inside before
      rw [listed, split] at inside
      obtain ⟨inner, among, rfl⟩ := List.mem_map.mp inside
      have below : inner.1 < first.1 := before
      rcases List.mem_cons.mp among with rfl | late
      · omega
      · have above := (List.pairwise_cons.mp order).1 inner late
        omega
  | seekSmall => cases told
  | seekEnd => cases told

theorem export_before (working : Working identity items desk v) :
    Ensures (Accounted identity items records) (fuel ≤ items.length)
      (Ends identity items records fun _ desk => Done identity items cutoff v desk)
      (exportBeforeDelete cutoff scratchSize fuel) desk := by
  refine ensures_act working (by simp) (fun _ takes => by cases takes) (fun result host v' answers holding regular => ?_)
    fun code => rfl
  have read : ∀ more, Working identity items ⟨host, desk.exported ++ more⟩ v' ∧ v'.content = v.content := fun more =>
    working_read working (fun _ _ effect => by cases effect) answers holding regular
  obtain ⟨working', same⟩ := read []
  rw [List.append_nil] at working'
  have few : (due v'.content v'.position).length ≤ items.length := by
    have listed_ := working'.kept.sublist.length_le
    rw [listed, List.length_map] at listed_
    exact le_trans (List.length_filter_le _ _) listed_
  cases result with
  | error error =>
      refine ensures_done (working_halts working') ?_
      by_cases ended : error = .endOfData
      · rw [if_pos ended]
        subst ended
        refine ⟨v', working', same, ?_⟩
        rw [same]
        exact seek_end answers
      · rw [if_neg ended]
        exact working_accounted working'
  | ok answer =>
      have loop := @export_loop identity items records _ v' cutoff scratchSize fuel working'
        (same.symm ▸ seek_start answers)
      refine ensures_waits (ensures_mono loop fun value last => ?_) fun short => le_trans short few
      cases value with
      | error error => exact id
      | ok done =>
          rintro ⟨v'', working'', kept, exported⟩
          exact ⟨v'', working'', kept.trans same, exported⟩

end Exporting

section Deciding
variable {cutoff scratchSize fuel : Nat} {host : Host}

-- What an expiration removes was exported.
theorem expire_kept {exported : List (Nat × Record)} {model : Model} (kept : Kept items exported (Model.items model))
    (told : Exported cutoff exported (Model.items model)) :
    Kept items exported (Model.items { model with installed := model.survivors cutoff }) := by
  have fewer : (Model.items { model with installed := model.survivors cutoff }).Sublist (Model.items model) :=
    (List.Sublist.flatten List.filter_sublist).append_right _
  refine ⟨fewer.trans kept.sublist, fun item among gone record inside => ?_⟩
  by_cases before : item ∈ Model.items model
  · refine told item before record inside ?_
    rcases List.mem_append.mp before with installed | pending
    · obtain ⟨segment, member, here⟩ := List.mem_flatten.mp installed
      have expired : (segmentTimes segment).all (fun time => decide (time < cutoff)) = true := by
        by_contra live
        refine gone (List.mem_append_left _ (List.mem_flatten.mpr ⟨segment, ?_, here⟩))
        exact List.mem_filter.mpr ⟨member, by simpa using live⟩
      have early := List.all_eq_true.mp expired record.timestamp.toNat
        (List.mem_flatMap.mpr ⟨item, here, List.mem_map.mpr ⟨record, inside, rfl⟩⟩)
      simpa using early
    · exact absurd (List.mem_append_right _ pending) gone
  · exact kept.told item among before record inside

theorem working_checkpoint {result : Except Error Answer} (working : Working identity items desk v)
    (answers : Answers (.checkpoint scratchSize) v result v') (holding : Holding host identity v') (regular : Regular v'.content) :
    Working identity items ⟨host, desk.exported⟩ v' := by
  have same : v'.content.high = v.content.high ∧ listed v'.content = listed v.content := by
    rcases answers_effect answers with same | effect
    · rw [same]
      exact ⟨rfl, rfl⟩
    · generalize v'.content = content at effect
      cases effect with
      | checkpoint scratchSize content some space => exact ⟨rfl, listed_checkpoint⟩
  refine ⟨holding, regular, ?_, ?_⟩
  · rw [same.1]
    exact working.unused
  · rw [same.2]
    exact working.kept

theorem working_expire {result : Except Error Answer} (working : Working identity items desk v)
    (told : Exported cutoff desk.exported (listed v.content)) (answers : Answers (.expireBefore cutoff scratchSize) v result v')
    (holding : Holding host identity v') (regular : Regular v'.content) : Working identity items ⟨host, desk.exported⟩ v' := by
  have kept := working.kept
  have same : v'.content.high = v.content.high ∧ Kept items desk.exported (listed v'.content) := by
    rcases answers_effect answers with same | effect
    · rw [same]
      exact ⟨rfl, kept⟩
    · generalize v'.content = content at effect
      cases effect with
      | expire cutoff scratchSize content =>
          refine ⟨rfl, ?_⟩
          rw [← items_listed] at kept told ⊢
          rw [model_expire working.holding.honest]
          exact expire_kept kept told
  exact ⟨holding, regular, by rw [same.1]; exact working.unused, same.2⟩

theorem checkpoint_shape (working : Working identity items desk v) {model : Model}
    (takes : Takes (.checkpoint scratchSize) (modelOf v.content) model) : Shape items records desk.exported model := by
  refine ⟨listed v.content, working.kept, .inl ?_⟩
  rw [← items_listed]
  cases takes with
  | checkpoint occupied fits => simp [Model.items]

theorem expire_shape (working : Working identity items desk v) (told : Exported cutoff desk.exported (listed v.content))
    {model : Model} (takes : Takes (.expireBefore cutoff scratchSize) (modelOf v.content) model) :
    Shape items records desk.exported model := by
  have kept := working.kept
  rw [← items_listed] at kept told
  cases takes with
  | expire => exact ⟨_, expire_kept kept told, .inl rfl⟩

theorem append_shape (working : Working identity items desk v) {model : Model}
    (takes : Takes (.append records scratchSize) (modelOf v.content) model) : Shape items records desk.exported model := by
  refine ⟨listed v.content, working.kept, .inr ?_⟩
  rw [← items_listed]
  cases takes with
  | append counted order fits => exact ⟨_, (List.append_assoc _ _ _).symm⟩

/-- What a policy that returns 0 leaves: an open handle that has lost only what was exported. -/
def Ready (identity : Bytes) (items : List Item) (desk : Desk) : Prop := ∃ v, Working identity items desk v

/-- And an append: the new batch is the last one. -/
def Appended (identity : Bytes) (items : List Item) (records : List Record) (sequence : Nat) (desk : Desk) : Prop :=
  ∃ v left, Holding desk.host identity v ∧ Regular v.content ∧ Kept items desk.exported left ∧
    listed v.content = left ++ [(sequence, records)]

theorem checkpoint_policy (working : Working identity items desk v) :
    Ensures (Accounted identity items records) (fuel ≤ items.length)
      (Ends identity items records fun _ desk => Ready identity items desk)
      (checkpointWithPolicy cutoff scratchSize fuel) desk := by
  have checkpoints : ∀ {desk : Desk} {v : View} {next : Except Error Answer → Client Unit}, Working identity items desk v →
      (∀ result host v', Answers (.checkpoint scratchSize) v result v' → Working identity items ⟨host, desk.exported⟩ v' →
        Ensures (Accounted identity items records) (fuel ≤ items.length)
          (Ends identity items records fun _ desk => Ready identity items desk) (next result) ⟨host, desk.exported⟩) →
      (∀ code, next (.error (.errno code)) = .done (some (.error (.errno code)))) →
      Ensures (Accounted identity items records) (fuel ≤ items.length)
        (Ends identity items records fun _ desk => Ready identity items desk) (.ask (.call (.checkpoint scratchSize)) next) desk :=
    fun working rest fails => ensures_act working (by simp) (fun _ => checkpoint_shape working)
      (fun result host v' answers holding regular => rest result host v' answers (working_checkpoint working answers holding regular)) fails
  refine checkpoints working (fun result host v' answers working' => ?_) fun code => by simp
  cases result with
  | ok answer => exact ensures_done (working_halts working') ⟨v', working'⟩
  | error error =>
      by_cases full : error = .databaseFull
      · simp only [full, ne_eq, not_true_eq_false, if_false]
        refine ensures_bind (export_before working') fun value middle exported => ?_
        cases value with
        | error error => exact ensures_done (accounted_halts exported) exported
        | ok done =>
            obtain ⟨v'', working'', -, told⟩ := exported
            refine ensures_act working'' (by simp) (fun _ => expire_shape working'' told)
              (fun result host v''' answers holding regular => ?_) fun code => rfl
            have expired := working_expire working'' told answers holding regular
            cases result with
            | error error => exact ensures_done (working_halts expired) (working_accounted expired)
            | ok answer =>
                refine checkpoints expired (fun result host last answers working''' => ?_) fun code => rfl
                refine ensures_done (working_halts working''') ?_
                cases result with
                | error error => exact working_accounted working'''
                | ok answer => exact ⟨last, working'''⟩
      · simp only [ne_eq, full, not_false_eq_true, if_true]
        exact ensures_done (working_halts working') (working_accounted working')

theorem appended_accounted {sequence : Nat} (appended : Appended identity items records sequence desk) :
    Accounted identity items records desk := by
  obtain ⟨v, left, holding, regular, kept, same⟩ := appended
  refine ⟨_, .live holding regular, fun model here => ⟨left, kept, .inr ⟨sequence, ?_⟩⟩⟩
  rw [show model = modelOf v.content from here, items_listed, same]

-- One call of append: it is refused and changes nothing, or adds the batch.
theorem ensures_append {next : Except Error Answer → Client Nat} (working : Working identity items desk v)
    (succeeds : ∀ answer, next (.ok answer) = .done (some (.ok (sequenceOf answer))))
    (refused : ∀ error host, Working identity items ⟨host, desk.exported⟩ v → Ensures (Accounted identity items records) waits
      (Ends identity items records (Appended identity items records)) (next (.error error)) ⟨host, desk.exported⟩)
    (fails : ∀ code, next (.error (.errno code)) = .done (some (.error (.errno code)))) :
    Ensures (Accounted identity items records) waits (Ends identity items records (Appended identity items records))
      (.ask (.call (.append records scratchSize)) next) desk := by
  refine ensures_act working (by simp) (fun _ => append_shape working) (fun result host v' answers holding regular => ?_) fails
  cases result with
  | error error =>
      generalize told : (.error error : Except Error Answer) = result at answers
      cases answers with
      | appendRefused records scratchSize v error' none =>
          cases told
          exact refused _ host ⟨holding, regular, working.unused, working.kept⟩
      | append => cases told
  | ok answer =>
      generalize told : (.ok answer : Except Error Answer) = result at answers
      cases answers with
      | appendRefused => cases told
      | append batch scratchSize v accepted none =>
          cases told
          have appended : Appended identity items batch.records (v.content.high + 1) ⟨host, desk.exported⟩ :=
            ⟨_, listed v.content, holding, regular, working.kept, @listed_append v.content batch accepted.more accepted.space⟩
          rw [succeeds]
          exact ensures_done (accounted_halts (appended_accounted appended)) appended

theorem append_policy (working : Working identity items desk v) :
    Ensures (Accounted identity items records) (fuel ≤ items.length)
      (Ends identity items records (Appended identity items records))
      (appendWithPolicy records cutoff scratchSize fuel) desk := by
  refine ensures_append working (fun _ => rfl) (fun error host working' => ?_) fun code => by simp
  by_cases full : error = .walFull
  · simp only [full, ne_eq, not_true_eq_false, if_false]
    refine ensures_bind (checkpoint_policy working') fun value middle ready => ?_
    cases value with
    | error error => exact ensures_done (accounted_halts ready) ready
    | ok done =>
        obtain ⟨v'', working''⟩ := ready
        exact ensures_append working'' (fun _ => rfl)
          (fun error host again => ensures_done (working_halts again) (working_accounted again)) fun code => rfl
  · simp only [ne_eq, full, not_false_eq_true, if_true]
    exact ensures_done (working_halts working') (working_accounted working')

end Deciding

end Keeping

section Undisturbed
variable {α β : Type} {outcome : Outcome α} {desk last : Desk} {identity : Bytes} {host : Host} {v : View}

theorem call_course {act : Act} {next : Except Error Answer → Client α}
    (rest : Course (next (desk.host.call act).1) ⟨(desk.host.call act).2, desk.exported⟩ outcome last) :
    Course (.ask (.call act) next) desk outcome last := .called (call_step _ _) rest

theorem exports_course {sequence : Nat} {records : List Record} {next : Unit → Client α}
    (rest : Course (next ()) ⟨desk.host, desk.exported ++ records.map fun record => (sequence, record)⟩ outcome last) :
    Course ((exportRecords sequence records).bind (chain next)) desk outcome last := by
  induction records generalizing desk with
  | nil =>
      rw [List.map_nil, List.append_nil] at rest
      exact rest
  | cons record later ih =>
      rw [List.map_cons, List.append_cons] at rest
      exact .exported (ih rest)

theorem course_seq {program : Client β} {next : Except Error β → Client α} {value : Except Error β} {middle : Desk}
    (front : Course program desk (.returned value) middle) (back : Course (next value) middle outcome last) :
    Course (program.bind (chain next)) desk outcome last := by
  generalize ended : Outcome.returned value = result at front
  induction front with
  | returned value desk =>
      cases ended
      exact back
  | waiting desk => cases ended
  | stopped program desk => cases ended
  | resumed program resumed => cases ended
  | exported rest ih => exact .exported (ih back ended)
  | called step rest ih => exact .called step (ih back ended)
  | restarted step => cases ended
  | crashed step => cases ended

-- The loop exports one batch after the other and stops behind the last.
theorem loop_course {cutoff scratchSize fuel : Nat} {exported : List (Nat × Record)} (holding : Holding host identity v)
    (large : batchScratch ≤ scratchSize) (enough : (due v.content v.position).length < fuel) :
    ∃ last v', Course (exportLoop ⟨0, cutoff, 0, 0⟩ scratchSize fuel) ⟨host, exported⟩ (.returned (.ok ())) last ∧
      Holding last.host identity v' ∧ v'.content = v.content ∧ v'.m = v.m := by
  induction fuel generalizing host v exported with
  | zero => exact absurd enough (Nat.not_lt_zero _)
  | succ fuel ih =>
      obtain ⟨v', answers, held⟩ :=
        @holding_call host identity v (.nextRange ⟨0, cutoff, 0, 0⟩ maxRecords scratchSize) holding (by simp)
      have ends : (host.call (.nextRange ⟨0, cutoff, 0, 0⟩ maxRecords scratchSize)).1 = .error .endOfData →
          Course (exportLoop ⟨0, cutoff, 0, 0⟩ scratchSize (fuel + 1)) ⟨host, exported⟩ (.returned (.ok ()))
            ⟨(host.call (.nextRange ⟨0, cutoff, 0, 0⟩ maxRecords scratchSize)).2, exported⟩ := by
        intro told
        refine call_course ?_
        rw [told]
        exact .returned (.ok ()) _
      generalize told : (host.call (.nextRange ⟨0, cutoff, 0, 0⟩ maxRecords scratchSize)).1 = result at answers ends
      cases answers with
      | rangeRefused range capacity scratchSize v error refused =>
          have ended : error = .endOfData := by
            rw [rangeRefusal, if_neg (by simp), if_neg (Nat.not_lt.mpr large)] at refused
            split at refused
            · exact (Option.some.inj refused).symm
            · cases refused
          exact ⟨_, _, ends (by rw [ended]), held, rfl, rfl⟩
      | rangeEnd range capacity scratchSize v accepted late => exact ⟨_, _, ends rfl, held, rfl, rfl⟩
      | rangeShort range capacity scratchSize v item accepted found small =>
          have most := item.2.few
          have fewer : (hits ⟨0, cutoff, 0, 0⟩ item.2).length ≤ item.2.records.length := List.length_filter_le _ _
          exact absurd small (by omega)
      | range range capacity scratchSize v item accepted found fits =>
          obtain ⟨last, v'', course, held', content, m⟩ :=
            @ih _ _ (exported ++ (hits ⟨0, cutoff, 0, 0⟩ item.2).map fun record => (item.1, record)) held
              (Nat.lt_of_lt_of_le (due_shorter found) (Nat.lt_succ_iff.mp enough))
          refine ⟨last, v'', call_course ?_, held', content, m⟩
          rw [told]
          exact exports_course course

theorem export_course {cutoff scratchSize fuel : Nat} (holding : Holding host identity v) (large : batchScratch ≤ scratchSize)
    (enough : (listed v.content).length < fuel) :
    ∃ last v', Course (exportBeforeDelete cutoff scratchSize fuel) ⟨host, []⟩ (.returned (.ok ())) last ∧
      Holding last.host identity v' ∧ v'.content = v.content ∧ v'.m = v.m := by
  obtain ⟨v', answers, held⟩ := @holding_call host identity v (.seek 0 scratchSize) holding (by simp)
  generalize told : (host.call (.seek 0 scratchSize)).1 = result at answers
  cases answers with
  | seekSmall from_us scratchSize v small => exact absurd small (Nat.not_lt.mpr large)
  | seekEnd from_us scratchSize v large none =>
      refine ⟨⟨(host.call (.seek 0 scratchSize)).2, []⟩, _, call_course ?_, held, rfl, rfl⟩
      rw [told]
      exact .returned (.ok ()) _
  | seek from_us scratchSize v item large found =>
      have few : (due v.content item.1).length ≤ (listed v.content).length := by
        rw [listed, List.length_map]
        exact List.length_filter_le _ _
      obtain ⟨last, v'', course, held', content, m⟩ := loop_course held large (Nat.lt_of_le_of_lt few enough)
      refine ⟨last, v'', call_course ?_, held', content, m⟩
      rw [told]
      exact course

theorem managed_call {calls : Nat} {model model' : Model} {act : Act} {result : Except Error Answer}
    (refines : Refines calls host ⟨true, model⟩) (few : calls < 2 ^ 60) (managed : Managed act)
    (performs : Database.perform ⟨true, model⟩ act = (result, ⟨true, model'⟩)) :
    (host.call act).1 = result ∧ Refines (calls + 1) (host.call act).2 ⟨true, model'⟩ := by
  have called := refines_call refines few managed
  rwa [performs] at called

/-- On full files, undisturbed: the policy exports, deletes, installs the pending batches and appends. -/
theorem policy_course {calls cutoff scratchSize fuel sequence : Nat} {records : List Record} {model freed installed appended : Model}
    (refines : Refines calls host ⟨true, model⟩) (few : calls + 5 ≤ 2 ^ 60) (large : batchScratch ≤ scratchSize)
    (enough : model.items.length < fuel) (walFull : model.append records scratchSize = (.error .walFull, model))
    (databaseFull : model.checkpoint scratchSize = (.error .databaseFull, model))
    (expires : model.expireBefore cutoff scratchSize = (.ok .none, freed))
    (installs : freed.checkpoint scratchSize = (.ok .none, installed))
    (appends : installed.append records scratchSize = (.ok (.sequence sequence), appended)) :
    ∃ last, Course (appendWithPolicy records cutoff scratchSize fuel) ⟨host, []⟩ (.returned (.ok sequence)) last ∧
      Refines (calls + 5) last.host ⟨true, appended⟩ := by
  obtain ⟨refused, one⟩ := managed_call refines (by omega) (.append records scratchSize)
    (by rw [Database.perform, walFull]; rfl)
  obtain ⟨declined, two⟩ := managed_call one (by omega) (.checkpoint scratchSize) (by rw [Database.perform, databaseFull]; rfl)
  -- The export leaves the files and the handle as they are.
  have exports : ∃ middle, Course (exportBeforeDelete cutoff scratchSize fuel)
      ⟨((host.call (.append records scratchSize)).2.call (.checkpoint scratchSize)).2, []⟩ (.returned (.ok ())) middle ∧
        Refines (calls + 1 + 1) middle.host ⟨true, model⟩ := by
    cases two with
    | closed identity v handle holding within fresh same => cases same
    | opened identity v holding within same =>
        have items : model.items = listed v.content := by
          rw [← items_listed]
          exact congrArg (fun database => Model.items database.model) same
        obtain ⟨middle, v', exports, held, content, m⟩ := @export_course identity _ v cutoff scratchSize fuel holding large (items ▸ enough)
        exact ⟨middle, exports, .opened identity v' held
          ⟨content ▸ within.wide, content ▸ within.assigned, m ▸ within.revised⟩ (content ▸ same)⟩
  obtain ⟨middle, exports, three⟩ := exports
  obtain ⟨expired, four⟩ := managed_call three (by omega) (.expireBefore cutoff scratchSize)
    (by rw [Database.perform, expires]; rfl)
  obtain ⟨installed_, five⟩ := managed_call four (by omega) (.checkpoint scratchSize) (by rw [Database.perform, installs]; rfl)
  obtain ⟨added, six⟩ := managed_call five (by omega) (.append records scratchSize) (by rw [Database.perform, appends]; rfl)
  have drains : Course (checkpointWithPolicy cutoff scratchSize fuel) ⟨(host.call (.append records scratchSize)).2, []⟩
      (.returned (.ok ())) ⟨((middle.host.call (.expireBefore cutoff scratchSize)).2.call (.checkpoint scratchSize)).2, middle.exported⟩ := by
    refine call_course ?_
    rw [declined]
    refine course_seq exports (call_course ?_)
    rw [expired]
    refine call_course ?_
    rw [installed_]
    exact .returned (.ok ()) _
  refine ⟨⟨_, middle.exported⟩, call_course ?_, six⟩
  rw [refused]
  refine course_seq drains (call_course ?_)
  rw [added]
  exact .returned (.ok sequence) _

end Undisturbed

section Filling
variable {record : Record} {model : Model} {scratchSize : Nat}

/-- What runs that write nothing but batches of one record keep. -/
structure Filled (record : Record) (model : Model) : Prop where
  same : ∀ item ∈ model.items, item.2 = [record]
  floor : model.floor ≤ record.timestamp.toNat
  wal : model.walSize ≤ walCapacity
  database : 160 + Model.installedSize model.installed ≤ databaseCapacity

def used (model : Model) : Nat := Model.installedSize model.installed + model.walSize

theorem append_filled (filled : Filled record model) (large : batchScratch ≤ scratchSize) :
    model.append [record] scratchSize = (.error .walFull, model) ∧ walCapacity < model.walSize + 84 ∨
    ∃ model', model.append [record] scratchSize = (.ok (.sequence (model.high + 1)), model') ∧ Filled record model' ∧
      model'.installed = model.installed ∧ used model < used model' := by
  have orderly : ¬ model.Disordered [record] := by
    have floor := filled.floor
    simp only [Model.Disordered, List.map_cons, List.map_nil, List.pairwise_singleton, not_true_eq_false, false_or,
      List.mem_singleton, exists_eq_left]
    omega
  have one : ¬ ([record].length = 0 ∨ maxRecords < [record].length) := by simp [maxRecords]
  have size : encodedSize [record] = 84 := rfl
  rw [Model.append, if_neg one, if_neg (Nat.not_lt.mpr large), if_neg orderly, size]
  by_cases full : walCapacity < model.walSize + 84
  · rw [if_pos full]
    exact .inl ⟨rfl, full⟩
  · rw [if_neg full]
    have grown : batchesSize (model.pending ++ [(model.high + 1, [record])]) = batchesSize model.pending + 84 := by
      simp [batchesSize, size]
    refine .inr ⟨_, rfl, ⟨fun item inside => ?_, Nat.le_refl _, ?_, filled.database⟩, rfl, ?_⟩
    · rcases List.mem_append.mp inside with installed | pending
      · exact filled.same item (List.mem_append_left _ installed)
      · rcases List.mem_append.mp pending with before | last
        · exact filled.same item (List.mem_append_right _ before)
        · rw [List.mem_singleton.mp last]
    · simp only [Model.walSize, grown] at full ⊢
      omega
    · simp only [used, Model.walSize, grown]
      omega

theorem checkpoint_filled (filled : Filled record model) (large : batchScratch ≤ scratchSize) (some : model.pending ≠ []) :
    model.checkpoint scratchSize = (.error .databaseFull, model) ∧
        databaseCapacity < 160 + Model.installedSize (model.installed ++ [model.pending]) ∨
    ∃ model', model.checkpoint scratchSize = (.ok .none, model') ∧ Filled record model' ∧
      model'.installed = model.installed ++ [model.pending] ∧ model'.pending = [] ∧ used model < used model' := by
  rw [Model.checkpoint, if_neg (Nat.not_lt.mpr large), if_neg some]
  by_cases full : databaseCapacity < 160 + Model.installedSize (model.installed ++ [model.pending])
  · rw [if_pos full]
    exact .inl ⟨rfl, full⟩
  · rw [if_neg full]
    have emptied : 32 + batchesSize [] ≤ walCapacity := by decide
    refine .inr ⟨_, rfl, ⟨fun item inside => filled.same item ?_, filled.floor, emptied, Nat.not_lt.mp full⟩, rfl, rfl, ?_⟩
    · simpa [Model.items] using inside
    · simp only [used, Model.walSize, Model.installedSize, List.map_append, List.sum_append, List.map_cons, List.map_nil,
        List.sum_cons, List.sum_nil, batchesSize]
      omega

/-- A full pair: neither an append nor a checkpoint has room. -/
structure Full (record : Record) (scratchSize : Nat) (model : Model) : Prop where
  filled : Filled record model
  wal : model.append [record] scratchSize = (.error .walFull, model)
  database : model.checkpoint scratchSize = (.error .databaseFull, model)
  more : databaseCapacity < 160 + Model.installedSize (model.installed ++ [model.pending])

/-- Appends and checkpoints of one record reach a full pair: each of them takes room. -/
theorem fills_up {start host : Host} {events : List System.Event} {calls : Nat} (large : batchScratch ≤ scratchSize)
    (run : Run start events host) (refines : Refines calls host ⟨true, model⟩) (filled : Filled record model)
    (few : calls + (databaseCapacity + walCapacity - used model) ≤ 2 ^ 59) :
    ∃ events' full calls' model', Run start events' full ∧ Refines calls' full ⟨true, model'⟩ ∧ calls' ≤ 2 ^ 59 ∧
      Full record scratchSize model' := by
  generalize room : databaseCapacity + walCapacity - used model = n at few
  induction n using Nat.strong_induction_on generalizing host events calls model with
  | _ n ih =>
      have step : ∀ {act : Act} {result : Except Error Answer} {model' : Model}, Managed act →
          Database.perform ⟨true, model⟩ act = (result, ⟨true, model'⟩) → Filled record model' → used model < used model' →
          ∃ events' full calls' model', Run start events' full ∧ Refines calls' full ⟨true, model'⟩ ∧ calls' ≤ 2 ^ 59 ∧
            Full record scratchSize model' := by
        intro act result model' managed performs filled' more
        have wal := filled'.wal
        have database := filled'.database
        have inside : used model' ≤ databaseCapacity + walCapacity := by
          rw [used]
          omega
        exact ih _ (by omega) (.step run (call_step host act)) (managed_call refines (by omega) managed performs).2 filled' rfl
          (by omega)
      rcases append_filled filled large with ⟨walFull, least⟩ | ⟨model', appends, filled', -, more⟩
      · have some : model.pending ≠ [] := by
          intro none
          rw [Model.walSize, none] at least
          exact absurd least (by decide)
        rcases checkpoint_filled filled large some with ⟨databaseFull, most⟩ | ⟨model', installs, filled', -, -, more⟩
        · exact ⟨events, host, calls, model, run, refines, by omega, filled, walFull, databaseFull, most⟩
        · exact step (.checkpoint scratchSize) (by rw [Database.perform, installs]; rfl) filled' more
      · exact step (.append [record] scratchSize) (by rw [Database.perform, appends]; rfl) filled' more

-- The policy makes room: all installed segments expire, and the pending batches take their place.
theorem full_drains {cutoff : Nat} (full : Full record scratchSize model) (large : batchScratch ≤ scratchSize)
    (early : record.timestamp.toNat < cutoff) :
    ∃ freed installed appended sequence, model.expireBefore cutoff scratchSize = (.ok .none, freed) ∧
      freed.checkpoint scratchSize = (.ok .none, installed) ∧
      installed.append [record] scratchSize = (.ok (.sequence sequence), appended) ∧
      Model.installedSize appended.installed < Model.installedSize model.installed := by
  obtain ⟨filled, walFull, databaseFull, more⟩ := full
  have cap : walCapacity = 67108864 := rfl
  have cap' : databaseCapacity = 1073741824 := rfl
  have wal := filled.wal
  have split : Model.installedSize (model.installed ++ [model.pending]) =
      Model.installedSize model.installed + (64 + batchesSize model.pending) := by simp [Model.installedSize]
  rw [split] at more
  rw [Model.walSize] at wal
  have none : model.survivors cutoff = [] := by
    refine List.filter_eq_nil_iff.mpr fun segment inside => ?_
    have expired : (segmentTimes segment).all (fun time => decide (time < cutoff)) = true := by
      refine List.all_eq_true.mpr fun time among => ?_
      obtain ⟨item, member, here⟩ := List.mem_flatMap.mp among
      rw [timesOfItem, filled.same item (List.mem_append_left _ (List.mem_flatten.mpr ⟨segment, inside, member⟩))] at here
      rw [List.mem_singleton.mp here]
      exact decide_eq_true early
    simp [expired]
  have occupied : ([] : List (List Item)).length ≠ model.installed.length := by
    intro same
    rw [List.length_eq_zero_iff.mp same.symm] at more
    simp only [Model.installedSize, List.map_nil, List.sum_nil] at more
    omega
  have expires : model.expireBefore cutoff scratchSize = (.ok .none, { model with installed := [] }) := by
    have room : ¬ databaseCapacity < 160 + Model.installedSize model.installed + Model.installedSize [] :=
      Nat.not_lt.mpr filled.database
    rw [Model.expireBefore, if_neg (Nat.not_lt.mpr large), none, if_neg occupied, if_neg room]
  have some : model.pending ≠ [] := by
    rcases append_filled filled large with ⟨_, least⟩ | ⟨_, appends, _⟩
    · intro empty
      rw [Model.walSize, empty] at least
      exact absurd least (by decide)
    · rw [walFull] at appends
      cases appends
  have bare : 160 + Model.installedSize [] ≤ databaseCapacity := by decide
  have empty : Filled record { model with installed := [] } :=
    ⟨fun item inside => filled.same item (List.mem_append_right _ inside), filled.floor, filled.wal, bare⟩
  have few : Model.installedSize ([] ++ [model.pending]) = 64 + batchesSize model.pending := by simp [Model.installedSize]
  rcases checkpoint_filled empty large some with ⟨_, tight⟩ | ⟨installed, installs, filled', segments, pending, _⟩
  · simp only [few] at tight
    omega
  rcases append_filled filled' large with ⟨_, least⟩ | ⟨appended, appends, _, same, _⟩
  · rw [Model.walSize, pending] at least
    exact absurd least (by decide)
  refine ⟨_, installed, appended, _, expires, installs, appends, ?_⟩
  rw [same, segments]
  simp only [few]
  omega

theorem refines_status {host : Host} {calls : Nat} (refines : Refines calls host ⟨true, model⟩) :
    (host.call .getStatus).1 = .ok (.status model.status) := by
  cases refines with
  | closed identity v handle holding within fresh same => cases same
  | opened identity v holding within same =>
      have shape : model = modelOf v.content := congrArg Database.model same
      rw [holding_status holding, shape, status_agrees within.wide]

end Filling

/-- From any reachable state with an open handle, whatever fails and wherever the process or the machine stops: the
policy deletes no batch but those whose records it has exported, and adds the new batch at most once; if it returns 0
the handle reads back what is left and then the new batch. Its loop needs no more passes than there are batches. -/
theorem exports_before_deletes {start host : Host} {events : List System.Event} (created : Created start)
    (run : Run start events host) (ready : batchReady host.db = .ok ()) (unused : host.db.sequence < uint64Max) :
    ∃ items, Exposes host items ∧ ∀ records cutoff_us scratchSize fuel outcome last,
      Course (appendWithPolicy records cutoff_us scratchSize fuel) ⟨host, []⟩ outcome last →
        (∃ ideal, Shows last.host ideal ∧ ∀ model, Allows ideal model → Shape items records last.exported model) ∧
        (∀ sequence, outcome = .returned (.ok sequence) → batchReady last.host.db = .ok () ∧
          ∃ left, Kept items last.exported left ∧ Exposes last.host (left ++ [(sequence, records)])) ∧
        (outcome = .waiting → fuel ≤ items.length) := by
  obtain ⟨identity, live⟩ := created_live created
  have first : Represents identity start (.live .empty 1) :=
    @Represents.live identity start ⟨.empty, createdManifests, 1⟩ ⟨live, honest_empty⟩ regular_empty
  obtain ⟨ideal, -, represents⟩ := runs_simulate step_refines (run_runs run) first
  cases represents with
  | down unready sized safe =>
      obtain ⟨error, refused⟩ := unready_error unready
      rw [ready] at refused
      cases refused
  | @live v holding regular =>
      have working : Working identity (listed v.content) ⟨host, []⟩ v := ⟨holding, regular,
        holding.live.settled.tracks.sequence ▸ unused, ⟨List.Sublist.refl _, fun item among gone => absurd among gone⟩⟩
      refine ⟨listed v.content, holding_exposes holding, fun records cutoff_us scratchSize fuel outcome last course => ?_⟩
      obtain ⟨-, waits, returns⟩ := append_policy working outcome last course
      have accounted := (append_policy working .cut last (course_stopped course)).1 rfl
      refine ⟨?_, fun sequence same => ?_, waits⟩
      · obtain ⟨ideal, represents, shape⟩ := accounted
        exact ⟨ideal, represents_shows represents, shape⟩
      · obtain ⟨v', left, holding', regular', kept, same⟩ := returns _ same
        exact ⟨holding'.live.settled.serving.batch_ready, left, kept, same ▸ holding_exposes holding'⟩

-- On full files a course exports and deletes before it appends.
theorem exports_before_deletes_full : ∃ host last fuel sequence before after,
    (host.call (.append [⟨1, 5, 7⟩] batchScratch)).1 = .error .walFull ∧
    (host.call (.checkpoint batchScratch)).1 = .error .databaseFull ∧
    Course (appendWithPolicy [⟨1, 5, 7⟩] 6 batchScratch fuel) ⟨host, []⟩ (.returned (.ok sequence)) last ∧
    (host.call .getStatus).1 = .ok (.status before) ∧ (last.host.call .getStatus).1 = .ok (.status after) ∧
    after.installedBytes < before.installedBytes ∧
    ∃ items left, Exposes host items ∧ Kept items last.exported left ∧
      Exposes last.host (left ++ [(sequence, [⟨1, 5, 7⟩])]) := by
  obtain ⟨identity, live⟩ := created_live fresh_created
  have begun : Refines 0 fresh ⟨true, .empty⟩ :=
    .opened identity ⟨.empty, createdManifests, 1⟩ ⟨live, honest_empty⟩
      ⟨fun segment member => absurd member (List.not_mem_nil), Nat.le_refl _, Nat.le_refl _⟩ rfl
  have empty : Filled ⟨1, 5, 7⟩ .empty := ⟨fun item inside => absurd inside (List.not_mem_nil), by decide, by decide, by decide⟩
  obtain ⟨events, host, calls, model, run, refines, few, full⟩ :=
    fills_up (Nat.le_refl batchScratch) (.start fresh) begun empty (by decide)
  obtain ⟨freed, installed, appended, sequence, expires, installs, appends, less⟩ :=
    @full_drains _ _ _ 6 full (Nat.le_refl batchScratch) (by decide)
  obtain ⟨last, course, refines'⟩ := policy_course refines (by omega) (Nat.le_refl batchScratch) (Nat.lt_succ_self _)
    full.wal full.database expires installs appends
  have walFull := (managed_call refines (by omega) (.append [⟨1, 5, 7⟩] batchScratch)
    (by rw [Database.perform, full.wal]; rfl)).1
  have databaseFull := (managed_call refines (by omega) (.checkpoint batchScratch)
    (by rw [Database.perform, full.database]; rfl)).1
  have fit : batchReady host.db = .ok () ∧ host.db.sequence < uint64Max := by
    cases refines with
    | closed identity v handle holding within fresh same => cases same
    | opened identity v holding within same =>
        have assigned := within.assigned
        have settled := holding.live.settled
        exact ⟨settled.serving.batch_ready, by rw [settled.tracks.sequence, uint64Max]; omega⟩
  obtain ⟨items, exposes, policies⟩ := exports_before_deletes fresh_created run fit.1 fit.2
  obtain ⟨-, left, kept, exposes'⟩ := (policies _ _ _ _ _ _ course).2.1 sequence rfl
  exact ⟨host, last, _, sequence, _, _, walFull, databaseFull, course, refines_status refines, refines_status refines', less,
    items, left, exposes, kept, exposes'⟩

end Timelite.Policies
