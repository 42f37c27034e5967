import Timelite.Requesting
import Timelite.Opening

/-!
One call of open and the two files, whatever the backend replies: it hands over
both, or gives back what it took. Its steps end at the first one that fails, and
what the cleanup is told does not matter.
-/
namespace Timelite.Settling
open ByteFile Program Durable Codec Backend Reader Retention BatchApi System Requesting

/-- The file that a request got hold of. -/
def acquires : Event Reply → Option File
  | ⟨.open file, .ok _⟩ => some file
  | ⟨.create file, .ok _⟩ => some file
  | _ => none

def closes : Event Reply → Option File
  | ⟨.close file, _⟩ => some file
  | _ => none

/-- A request for the database file itself, granted or not. -/
def attempts : Event Reply → Option Call
  | ⟨.open .database, _⟩ => some (.open .database)
  | ⟨.create .database, _⟩ => some (.create .database)
  | _ => none

/-- The failures that open goes on from: nothing exists yet, the probe finds no
WAL without a database, another process has created the pair first. -/
def Tolerated (mode : OpenMode) (past : List (Event Reply)) : Event Reply → Prop
  | ⟨.open .database, .error code⟩ => code = .enoent ∧ mode = .openOrCreate ∧ past = []
  | ⟨.open .wal, .error code⟩ => code = .enoent ∧ .database ∉ past.filterMap acquires
  | ⟨.create .database, .error code⟩ => code = .eexist ∧ mode = .openOrCreate
  | _ => False

/-- A step that fails, and the error it stands for. -/
def Fatal (mode : OpenMode) (past : List (Event Reply)) (event : Event Reply) (error : Error) : Prop :=
  failure event.1 event.2 = some error ∧ ¬ Tolerated mode past event

def Owned.files (owned : Owned) : List File :=
  (if owned.database then [.database] else []) ++ if owned.wal then [.wal] else []

def failed {α : Type} : Except Error α → Option Error
  | .error error => some error
  | .ok _ => none

section Steps
variable {mode : OpenMode} {owned owned' : Owned} {left left' : List Call} {past : List (Event Reply)}
  {fault fault' : Option Error}

/-- Where the steps of a call stand: what it owns, how it may still try to get
the database, and the error of the step that failed. -/
structure Stands (mode : OpenMode) (owned : Owned) (left : List Call) (past : List (Event Reply)) (fault : Option Error) :
    Prop where
  first : ∀ front event back error, past = front ++ event :: back → Fatal mode front event error →
    back = [] ∧ fault = some error
  held : past.filterMap acquires = Owned.files owned
  kept : past.filterMap closes = []
  tried : (past.filterMap attempts ++ left).Sublist [.open .database, .create .database, .open .database]

theorem stands_start (mode : OpenMode) :
    Stands mode ⟨false, false⟩ [.open .database, .create .database, .open .database] [] none :=
  ⟨fun front event back error same => by simp at same, rfl, rfl, .refl _⟩

/-- As long as no step has failed the call may refuse for a reason of its own. -/
theorem Stands.refuses (stands : Stands mode owned left past none) (fewer : left'.Sublist left) :
    Stands mode owned left' past fault := by
  refine ⟨fun front event back error same fatal => ?_, stands.held, stands.kept, ?_⟩
  · cases (stands.first front event back error same fatal).2
  · exact (fewer.append_left _).trans stands.tried

/-- One more step, while none has failed. -/
theorem Stands.step (event : Event Reply) (stands : Stands mode owned left past none)
    (told : ∀ error, Fatal mode past event error → fault' = some error)
    (held : Owned.files owned' = Owned.files owned ++ (acquires event).toList) (kept : closes event = none)
    (tried : ((attempts event).toList ++ left').Sublist left) : Stands mode owned' left' (past ++ [event]) fault' := by
  refine ⟨fun front other back error same fatal => ?_, ?_, ?_, ?_⟩
  · rcases List.eq_nil_or_concat back with rfl | ⟨rest, last, rfl⟩
    · obtain ⟨rfl, one⟩ := List.append_inj' same rfl
      obtain ⟨rfl, -⟩ := List.cons.inj one
      exact ⟨rfl, told error fatal⟩
    · have split : past ++ [event] = (front ++ other :: rest) ++ [last] := by simpa using same
      obtain ⟨earlier, -⟩ := List.append_inj' split rfl
      cases (stands.first front other rest error earlier fatal).2
  · rw [List.filterMap_append, stands.held, held]
    cases found : acquires event <;> simp [found]
  · rw [List.filterMap_append, stands.kept]
    simp [kept]
  · refine List.Sublist.trans ?_ stands.tried
    have whole : (past ++ [event]).filterMap attempts ++ left' = past.filterMap attempts ++ ((attempts event).toList ++ left') := by
      rw [List.filterMap_append, List.append_assoc]
      cases found : attempts event <;> simp [found]
    rw [whole]
    exact tried.append_left _

/-- Requests that neither take nor give back a file. -/
def Quiet : Call → Prop
  | .open _ | .create _ | .close _ => False
  | _ => True

theorem quiet_step (call : Call) (quiet : Quiet call) (reply : Reply call) (stands : Stands mode owned left past none) :
    Stands mode owned left (past ++ [⟨call, reply⟩]) (failure call reply) := by
  have nothing : acquires ⟨call, reply⟩ = none ∧ closes ⟨call, reply⟩ = none ∧ attempts ⟨call, reply⟩ = none := by
    cases call <;> first | exact quiet.elim | exact ⟨rfl, rfl, rfl⟩
  refine stands.step _ (fun error fatal => fatal.1) ?_ nothing.2.1 ?_
  · simp [nothing.1]
  · simp [nothing.2.2]

theorem quiet_plain {call : Call} (plain : Plain call) : Quiet call := by
  cases call <;> first | exact plain.elim | trivial

/-- The steps on open files. -/
theorem asks_stand {α : Type} {may : Call → Prop} {holds : α → Prop} {program : Io α} (asks : Asks may holds program)
    (quiet : ∀ call, may call → Quiet call) (stands : Stands mode owned left past none) :
    Prog.Follows Discipline.recording (fun past' result => Stands mode owned left past' (failed result) ∧
      ∀ value, result = .ok value → holds value) past program := by
  refine follows_mono (follows_simulate (fun fault past' => Stands mode owned left past' fault) asks.asks stands ?_)
    fun past' result here => ?_
  · rintro fault past' call stands ⟨rfl, allowed⟩
    exact ⟨trivial, fun reply => quiet_step call (quiet call allowed) reply stands⟩
  · obtain ⟨fault, stands, kept, told⟩ := here
    refine ⟨?_, kept⟩
    cases fault with
    | none => exact stands.refuses (.refl _)
    | some error =>
        rw [(told error rfl).2]
        exact stands

/-- What acquiring leaves: the steps so far with their error, and these files if
there is none. -/
def Acquires (mode : OpenMode) {α : Type} (files : α → Owned) (past : List (Event Reply)) (result : Except Error α × Owned) :
    Prop :=
  Stands mode result.2 [] past (failed result.1) ∧ ∀ value, result.1 = .ok value → result.2 = files value

theorem create_stands (stands : Stands mode ⟨false, false⟩ [.create .database, .open .database] past none) :
    Prog.Follows Discipline.recording (Acquires mode fun created => ⟨true, created⟩) past (createPair mode) := by
  refine ⟨trivial, fun reply => ?_⟩
  cases reply with
  | ok opened =>
      have probed : Stands mode ⟨false, true⟩ [] (past ++ [⟨.open .wal, .ok opened⟩]) none :=
        stands.step _ (fun _ fatal => fatal.1) rfl rfl (List.nil_sublist _)
      exact ⟨probed.refuses (.refl _), nofun⟩
  | error code =>
      simp only
      split
      · exact ⟨stands.step _ (fun _ fatal => fatal.1) rfl rfl (List.nil_sublist _), nofun⟩
      rename_i absent
      have absent : code = .enoent := by simpa using absent
      have probed : Stands mode ⟨false, false⟩ [.create .database, .open .database] (past ++ [⟨.open .wal, .error code⟩]) none := by
        refine stands.step _ (fun _ fatal => absurd ?_ fatal.2) rfl rfl (.refl _)
        refine ⟨absent, ?_⟩
        rw [stands.held]
        exact List.not_mem_nil
      refine ⟨trivial, fun reply => ?_⟩
      cases reply with
      | error code => exact ⟨probed.step _ (fun _ fatal => fatal.1) rfl rfl (List.nil_sublist _), nofun⟩
      | ok identity =>
          have named := quiet_step .identity trivial (.ok identity) probed
          refine ⟨trivial, fun reply => ?_⟩
          cases reply with
          | error code =>
              simp only
              split
              · rename_i raced
                have lost : Stands mode ⟨false, false⟩ [.open .database] _ none :=
                  named.step ⟨.create .database, .error code⟩ (fun _ fatal => absurd raced fatal.2) rfl rfl (.refl _)
                refine ⟨trivial, fun reply => ?_⟩
                cases reply with
                | error code => exact ⟨lost.step _ (fun _ fatal => fatal.1) rfl rfl (.refl _), nofun⟩
                | ok opened => exact ⟨lost.step _ (fun _ fatal => fatal.1) rfl rfl (.refl _), fun _ same => (by cases same; rfl)⟩
              · exact ⟨named.step _ (fun _ fatal => fatal.1) rfl rfl (by simp [attempts]), nofun⟩
          | ok created =>
              have made : Stands mode ⟨true, false⟩ [] _ none :=
                named.step ⟨.create .database, .ok created⟩ (fun _ fatal => fatal.1) rfl rfl (by simp [attempts])
              refine ⟨trivial, fun reply => ?_⟩
              have locked : Stands mode ⟨true, false⟩ [] _ _ := quiet_step (.lock .database) trivial reply made
              cases reply with
              | error code => exact ⟨locked, nofun⟩
              | ok lock =>
                  refine ⟨trivial, fun reply => ?_⟩
                  cases reply with
                  | error code => exact ⟨locked.step _ (fun _ fatal => fatal.1) rfl rfl (.refl _), nofun⟩
                  | ok created =>
                      have paired : Stands mode ⟨true, true⟩ [] _ none :=
                        locked.step ⟨.create .wal, .ok created⟩ (fun _ fatal => fatal.1) rfl rfl (.refl _)
                      have headers : ∀ identity, Asks Quiet (fun _ => True) (createHeaders identity) := fun identity =>
                        asks_bind (asks_write trivial) fun _ _ => asks_write trivial
                      refine follows_bind (asks_stand (headers identity) (fun _ quiet => quiet) paired) fun past' result here => ?_
                      cases result with
                      | error error => exact ⟨here.1, nofun⟩
                      | ok done => exact ⟨here.1, fun _ same => (by cases same; rfl)⟩

theorem acquire_stands (mode : OpenMode) :
    Prog.Follows Discipline.recording (Acquires mode fun created => ⟨true, created⟩) [] (acquire mode) := by
  have start := stands_start mode
  unfold acquire
  split
  · exact create_stands (start.refuses (List.sublist_cons_self _ _))
  refine ⟨trivial, fun reply => ?_⟩
  cases reply with
  | ok opened => exact ⟨start.step _ (fun _ fatal => fatal.1) rfl rfl (by simp [attempts]), fun _ same => (by cases same; rfl)⟩
  | error code =>
      simp only
      split
      · rename_i absent
        exact create_stands (start.step _ (fun _ fatal => absurd ⟨absent.1, absent.2, rfl⟩ fatal.2) rfl rfl (.refl _))
      · exact ⟨start.step _ (fun _ fatal => fatal.1) rfl rfl (by simp [attempts]), nofun⟩

theorem companion_stands (stands : Stands mode ⟨true, false⟩ [] past none) :
    Prog.Follows Discipline.recording (Acquires mode fun _ => ⟨true, true⟩) past openCompanion := by
  have header : Asks Quiet (fun _ => True) (do fileLock .database; let _ ← pairHeader .database databaseMagic : Io Unit) :=
    asks_bind (asks_perform (.lock .database) trivial fun _ => rfl) fun _ _ =>
      asks_bind (asks_pair_header _ fun _ _ => trivial) fun _ _ => asks_pure trivial
  unfold openCompanion
  refine follows_bind (asks_stand header (fun _ quiet => quiet) stands) fun past' result here => ?_
  cases result with
  | error error => exact ⟨here.1, nofun⟩
  | ok passed =>
      have checked : Stands mode ⟨true, false⟩ [] past' none := here.1
      refine ⟨trivial, fun reply => ?_⟩
      cases reply with
      | error code => exact ⟨checked.step _ (fun _ fatal => fatal.1) rfl rfl (.refl _), nofun⟩
      | ok opened => exact ⟨checked.step _ (fun _ fatal => fatal.1) rfl rfl (.refl _), fun _ _ => rfl⟩

/-- Everything that open does before it hands over or gives back. -/
def preparing (mode : OpenMode) : Prog Reply (Except Error Batches × Owned) :=
  Prog.bind (acquire mode) fun
  | (.error error, owned) => .done (.error error, owned)
  | (.ok created, owned) => Prog.bind (if created then .done (.ok (), owned) else openCompanion) fun
      | (.error error, owned) => .done (.error error, owned)
      | (.ok (), owned) => Prog.bind (do let v ← validatePair; recoverPair v : Io Batches) fun result => .done (result, owned)

theorem preparing_stands (mode : OpenMode) :
    Prog.Follows Discipline.recording (fun past result => Acquires mode (fun _ => ⟨true, true⟩) past result ∧
      ∀ handle, result.1 = .ok handle → Usable handle) [] (preparing mode) := by
  refine follows_bind (acquire_stands mode) fun past result acquired => ?_
  obtain ⟨result, owned⟩ := result
  cases result with
  | error error => exact ⟨⟨acquired.1, nofun⟩, nofun⟩
  | ok created =>
      have second : Prog.Follows Discipline.recording (Acquires mode fun _ => ⟨true, true⟩) past
          (if created then .done (.ok (), owned) else openCompanion : Prog Reply (Except Error Unit × Owned)) := by
        obtain ⟨stands, files⟩ := acquired
        cases files created rfl
        cases created with
        | true => exact ⟨stands, fun _ _ => rfl⟩
        | false => exact companion_stands stands
      refine follows_bind second fun past' result companion => ?_
      obtain ⟨result, owned'⟩ := result
      cases result with
      | error error => exact ⟨⟨companion.1, nofun⟩, nofun⟩
      | ok ready =>
          have recover : Asks Plain Usable (do let v ← validatePair; recoverPair v : Io Batches) :=
            asks_bind asks_validate fun _ placed => asks_recover placed
          exact follows_bind (asks_stand recover (fun _ => quiet_plain) companion.1) fun past'' result here =>
            ⟨⟨here.1, fun _ _ => companion.2 ready rfl⟩, here.2⟩

end Steps

section Cleanup
variable {db after : Batches} {mode : OpenMode} {scratchSize : Nat} {owned : Owned} {events : List (Event Reply)}
  {result : Except Error Unit}

def closing : List File → Prog Reply Unit
  | [] => .done ()
  | file :: rest => .ask (.close file) fun _ => closing rest

-- Whatever the closes reply.
theorem closing_traces {files : List File} :
    (closing files).Traces events () ↔ events.map Sigma.fst = files.map Call.close := by
  induction files generalizing events with
  | nil =>
      constructor
      · rintro ⟨⟩
        rfl
      · intro none
        rw [List.map_eq_nil_iff.mp none]
        exact .done ()
  | cons file rest ih =>
      constructor
      · intro traces
        cases traces with
        | ask tail => exact congrArg (Call.close file :: ·) (ih.mp tail)
      · intro asked
        obtain ⟨⟨call, reply⟩, tail, rfl, rfl, later⟩ := List.map_eq_cons_iff.mp asked
        exact .ask (ih.mpr later)

theorem release_closing (owned : Owned) : release owned = closing (Owned.files owned).reverse := by
  obtain ⟨database, wal⟩ := owned
  cases database <;> cases wal <;> rfl

/-- How a call of open ends. The cleanup behind the steps closes what they took,
in the opposite order. -/
structure Settles (db : Batches) (mode : OpenMode) (scratchSize : Nat) (steps cleanup : List (Event Reply))
    (result : Except Error Unit) (after : Batches) : Prop where
  opened : result = .ok () → after.database = true ∧ after.wal = true ∧
    steps.filterMap acquires = [.database, .wal] ∧ cleanup = []
  refused : ∀ error, result = .error error → after = db ∧
    cleanup.map Sigma.fst = (steps.filterMap acquires).reverse.map Call.close
  -- No file is taken twice, and the database is taken before the WAL.
  once : (steps.filterMap acquires).Sublist [.database, .wal]
  kept : steps.filterMap closes = []
  -- The first step that fails is the last one, and its error is what is returned.
  first : ∀ front event back error, steps = front ++ event :: back → Fatal mode front event error →
    back = [] ∧ result = .error error
  -- The cleanup may be told anything.
  deaf : ∀ replies : List (Event Reply), replies.map Sigma.fst = cleanup.map Sigma.fst →
    (batchesOpen db mode scratchSize).Traces (steps ++ replies) (result, after)
  attempts : (steps.filterMap attempts).Sublist [.open .database, .create .database, .open .database]

theorem files_sublist (owned : Owned) : (Owned.files owned).Sublist [.database, .wal] := by
  obtain ⟨database, wal⟩ := owned
  cases database <;> cases wal <;> decide

-- Refused before the first request.
theorem settles_refused {error : Error} (refused : batchesOpen db mode scratchSize = refuse db error)
    (traces : (batchesOpen db mode scratchSize).Traces events (result, after)) :
    ∃ steps cleanup, events = steps ++ cleanup ∧ Settles db mode scratchSize steps cleanup result after := by
  have quiet := traces
  rw [refused] at quiet
  cases quiet
  refine ⟨[], [], rfl, nofun, fun error same => ⟨rfl, rfl⟩, List.nil_sublist _, rfl,
    fun front event back error same => by simp at same, fun replies none => ?_, List.nil_sublist _⟩
  rw [List.map_eq_nil_iff.mp none]
  exact traces

theorem open_prepares (closed : db.database = false ∧ db.wal = false) (large : batchScratch ≤ scratchSize) :
    batchesOpen db mode scratchSize = Prog.bind (preparing mode) fun
      | (.error error, owned) => failOpen db owned error
      | (.ok handle, _) => succeed handle () := by
  rw [Opening.open_acquires closed large]
  refine (congrArg (Prog.bind (acquire mode)) (funext fun result => ?_)).trans (bind_assoc _ _ _).symm
  obtain ⟨_ | created, owned⟩ := result
  · rfl
  refine (congrArg (Prog.bind _) (funext fun result => ?_)).trans (bind_assoc _ _ _).symm
  obtain ⟨_ | ready, owned⟩ := result
  · rfl
  refine (congrArg (Prog.bind _) (funext fun result => ?_)).trans (bind_assoc _ _ _).symm
  cases result <;> rfl

/-- In every call of open, whatever the requests reply. -/
theorem open_settles (traces : (batchesOpen db mode scratchSize).Traces events (result, after)) :
    ∃ steps cleanup, events = steps ++ cleanup ∧ Settles db mode scratchSize steps cleanup result after := by
  by_cases held : db.database = true ∨ db.wal = true
  · exact settles_refused (Opening.open_held held) traces
  have closed : db.database = false ∧ db.wal = false := by simpa using held
  by_cases small : scratchSize < batchScratch
  · exact settles_refused (Opening.open_small closed small) traces
  have prepares := @open_prepares db mode scratchSize closed (Nat.le_of_not_lt small)
  have parts := traces
  rw [prepares, traces_bind] at parts
  obtain ⟨⟨outcome, owned⟩, steps, cleanup, rfl, prepared, ended⟩ := parts
  obtain ⟨⟨stands, files⟩, usable⟩ := follows_traces (preparing_stands mode) prepared
  have taken : steps.filterMap acquires = Owned.files owned := stands.held
  have attempted : (steps.filterMap attempts).Sublist [.open .database, .create .database, .open .database] := by
    simpa using stands.tried
  refine ⟨steps, cleanup, rfl, ?_⟩
  cases outcome with
  | ok handle =>
      cases ended
      cases files _ rfl
      have usable := usable _ rfl
      refine ⟨fun _ => ⟨usable.database, usable.wal, taken, rfl⟩, nofun, taken ▸ files_sublist _, stands.kept,
        fun front event back error same fatal => ?_, fun replies none => ?_, attempted⟩
      · cases (stands.first front event back error same fatal).2
      · rw [List.map_eq_nil_iff.mp none]
        exact traces
  | error error =>
      have refuses : ∀ replies : List (Event Reply), (failOpen db owned error).Traces replies (result, after) ↔
          replies.map Sigma.fst = (Owned.files owned).reverse.map Call.close ∧ result = .error error ∧ after = db := by
        intro replies
        change (Prog.bind (release owned) fun _ => (.done (.error error, db) : Prog Reply (Except Error Unit × Batches))).Traces
          replies (result, after) ↔ _
        rw [release_closing, traces_bind]
        constructor
        · rintro ⟨_, front, _, rfl, closed, ⟨⟩⟩
          exact ⟨by simpa using closing_traces.mp closed, rfl, rfl⟩
        · rintro ⟨asked, rfl, rfl⟩
          exact ⟨(), replies, [], by simp, closing_traces.mpr asked, .done _⟩
      obtain ⟨asked, rfl, rfl⟩ := (refuses cleanup).mp ended
      refine ⟨nofun, fun _ _ => ⟨rfl, taken ▸ asked⟩, taken ▸ files_sublist _, stands.kept,
        fun front event back fault same fatal => ?_, fun replies same => ?_, attempted⟩
      · obtain ⟨last, told⟩ := stands.first front event back fault same fatal
        exact ⟨last, congrArg Except.error (Option.some.inj told)⟩
      · rw [prepares, traces_bind]
        exact ⟨_, steps, replies, rfl, prepared, (refuses replies).mpr ⟨same.trans asked, rfl, rfl⟩⟩

end Cleanup

/-- Another process creates the pair first and still holds its lock; the close
of the cleanup fails too. -/
def racedEvents : List (Event Reply) :=
  [⟨.open .database, .error .enoent⟩, ⟨.open .wal, .error .enoent⟩, ⟨.identity, .ok []⟩, ⟨.create .database, .error .eexist⟩,
    ⟨.open .database, .ok ()⟩, ⟨.lock .database, .error .ebusy⟩, ⟨.close .database, .error .eio⟩]

theorem raced_traces : (batchesOpen batchesInit .openOrCreate batchScratch).Traces racedEvents (.error (.errno .ebusy), batchesInit) :=
  .ask (.ask (.ask (.ask (.ask (.ask (.ask (.done _)))))))

theorem open_settles_raced : ∃ steps cleanup, racedEvents = steps ++ cleanup ∧
    Settles batchesInit .openOrCreate batchScratch steps cleanup (.error (.errno .ebusy)) batchesInit :=
  open_settles raced_traces

end Timelite.Settling
