import Timelite.Owning

/-!
The processes that share a pair of paths, and what holds in every interleaving of
their backend calls: one owner, and headers that are written once, by the call
that has created both files.
-/
namespace Timelite.Sharing
open ByteFile Program Durable Codec Backend BatchApi System Requesting Owning

/-- Who has the lock of the database. A close that fails may leave it to nobody. -/
inductive Owner where
  | free
  | process (p : Nat)
  | lost
  deriving DecidableEq, Repr

-- The lock goes with the file that a process closes.
def Owner.leave (owner : Owner) (p : Nat) : Owner := if owner = .process p then .free else owner

/-- A process: its handle, what is left of the call it is in, and its files. -/
structure Process where
  db : Batches
  rest : Option (Op Answer)
  hold : Hold

structure World where
  store : Store
  owner : Owner
  process : Nat → Process

def World.with (w : World) (p : Nat) (process : Process) : World := { w with process := Function.update w.process p process }

def boot (store : Store) : World := ⟨store, .free, fun _ => ⟨batchesInit, none, .none⟩⟩

/-- The backend's answer to one request of process `p`. -/
inductive Reaction (w : World) (p : Nat) : (call : Call) → Reply call → Store → Owner → Prop where
  | locked (free : w.owner = .free) : Reaction w p (.lock .database) (.ok ()) w.store (.process p)
  | busy (taken : w.owner ≠ .free) : Reaction w p (.lock .database) (.error .ebusy) w.store w.owner
  | closed : Reaction w p (.close .database) (.ok ()) w.store (w.owner.leave p)
  | unclosed (code : Errno) : Reaction w p (.close .database) (.error code) w.store (w.owner.leave p)
  | lost (code : Errno) (owns : w.owner = .process p) : Reaction w p (.close .database) (.error code) w.store .lost
  | served (call : Call) (other : call ≠ .lock .database ∧ call ≠ .close .database) :
      Reaction w p call (serve call w.store).1 (serve call w.store).2 w.owner
  | failed {call : Call} {reply : Reply call} {store : Store} (fault : Fault call w.store reply store)
      (other : call ≠ .close .database) : Reaction w p call reply store w.owner

inductive Event where
  | called (p : Nat) (act : Act)
  | asked (p : Nat) (call : Call)
  | returned (p : Nat)
  | exited (p : Nat)

/-- One process calls a function of the library, makes one request, returns from
a call, or ends. -/
inductive Step : World → Event → World → Prop where
  | called {w : World} (p : Nat) (act : Act) (idle : (w.process p).rest = none) :
      Step w (.called p act) (w.with p ⟨(w.process p).db, some (act.perform (w.process p).db),
        (w.process p).hold.call (w.process p).db⟩)
  | asked {w : World} {p : Nat} {call : Call} {next : Reply call → Op Answer} {reply : Reply call} {store : Store}
      {owner : Owner} (running : (w.process p).rest = some (.ask call next)) (reaction : Reaction w p call reply store owner) :
      Step w (.asked p call) (World.with ⟨store, owner, w.process⟩ p
        ⟨(w.process p).db, some (next reply), (w.process p).hold.after call reply⟩)
  | returned {w : World} {p : Nat} {result : Except Error Answer} {db : Batches}
      (running : (w.process p).rest = some (.done (result, db))) :
      Step w (.returned p) (w.with p ⟨db, none, (w.process p).hold⟩)
  | exited {w : World} (p : Nat) :
      Step w (.exited p) (World.with ⟨w.store, w.owner.leave p, w.process⟩ p ⟨batchesInit, none, .none⟩)

inductive Run : World → List Event → World → Prop where
  | start (w : World) : Run w [] w
  | step {first middle last : World} {events : List Event} {event : Event} (before : Run first events middle)
      (after : Step middle event last) : Run first (events ++ [event]) last

/-- The request that process `p` makes next. -/
def World.Asks (w : World) (p : Nat) (call : Call) : Prop := ∃ next, (w.process p).rest = some (.ask call next)

/-- The handle of an open that has returned 0, as long as its database is open. -/
def World.Opened (w : World) (p : Nat) : Prop :=
  (w.process p).db.database = true ∧ (w.process p).hold.held .database = true

/-- Whether an event asks for a write over the pair header. -/
def initialises (file : File) : Event → Bool
  | .asked _ (.write written offset _) => decide (written = file ∧ offset < 32)
  | _ => false

def headers (file : File) (events : List Event) : Nat := events.countP (initialises file)

section Reactions
variable {w : World} {p q : Nat} {call : Call} {reply : Reply call} {store : Store} {owner : Owner} {hold : Hold}
  {file : File}

/-- A create that succeeds. -/
def Creates : (call : Call) → Reply call → File → Prop
  | .create made, .ok _, file => made = file
  | _, _, _ => False

theorem put_disk (store : Store) (written : File) (disk : Disk) (file : File) :
    (store.put written disk).disk? file = if written = file then some disk else store.disk? file := by
  cases written <;> cases file <;> rfl

-- No request removes a file.
theorem reaction_keeps (reaction : Reaction w p call reply store owner) (there : (w.store.disk? file).isSome = true) :
    (store.disk? file).isSome = true := by
  have put : ∀ written disk, ((w.store.put written disk).disk? file).isSome = true := by
    intro written disk
    rw [put_disk]
    split
    · rfl
    · exact there
  cases reaction with
  | locked free => exact there
  | busy taken => exact there
  | closed => exact there
  | unclosed code => exact there
  | lost code owns => exact there
  | served call other =>
      cases call with
      | «open» file =>
          simp only [Backend.serve]
          split <;> exact there
      | create file =>
          simp only [Backend.serve]
          split
          · exact there
          · exact put _ _
      | lock file => exact there
      | identity => exact there
      | read file offset length => exact there
      | write file offset bytes => exact put _ _
      | size file => exact there
      | truncate file size => exact put _ _
      | sync file => exact put _ _
      | provision file => exact put _ _
      | close file => exact there
  | failed fault other =>
      cases fault with
      | before call store code known => exact there
      | write file offset bytes count store code cut => exact put _ _
      | truncate file size store code => exact put _ _
      | sync file store code => exact put _ _
      | provision file store code => exact put _ _
      | create file store code fresh known => exact put _ _

-- Exclusive creation.
theorem reaction_creates (reaction : Reaction w p call reply store owner) (creates : Creates call reply file) :
    w.store.disk? file = none ∧ (store.disk? file).isSome = true := by
  cases reaction with
  | served call other =>
      cases call with
      | create made =>
          by_cases there : (w.store.disk? made).isSome = true
          · simp only [Backend.serve, if_pos there] at creates
            cases creates
          · simp only [Backend.serve, if_neg there] at creates ⊢
            have same : made = file := creates
            subst same
            refine ⟨by simpa using there, ?_⟩
            rw [put_disk, if_pos rfl]
            rfl
      | _ => cases creates
  | failed fault other =>
      cases fault with
      | create => cases creates
      | before call store code known => cases call <;> cases creates
      | _ => cases creates
  | _ => cases creates

-- The lock does not change hands while a process that has it keeps the file open.
theorem reaction_owner (reaction : Reaction w p call reply store owner) (owned : w.owner = .process q)
    (other : q = p → call ≠ .close .database) : owner = .process q := by
  cases reaction with
  | locked free =>
      rw [free] at owned
      cases owned
  | busy taken => exact owned
  | closed =>
      have different : Owner.process q ≠ .process p := fun same => other (Owner.process.inj same) rfl
      rw [owned, Owner.leave, if_neg different]
  | unclosed code =>
      have different : Owner.process q ≠ .process p := fun same => other (Owner.process.inj same) rfl
      rw [owned, Owner.leave, if_neg different]
  | lost code owns => exact absurd rfl (other (Owner.process.inj (owned.symm.trans owns)))
  | served call _ => exact owned
  | failed fault _ => exact owned

theorem after_made : (hold.after call reply).made file = true ↔ hold.made file = true ∨ Creates call reply file := by
  cases call with
  | create made =>
      cases reply with
      | error code => simp [Hold.after, Creates]
      | ok done => cases made <;> cases file <;> simp [Hold.after, Creates, Function.update]
  | «open» opened => cases reply <;> simp [Hold.after, Creates]
  | lock locked => cases reply <;> simp [Hold.after, Creates]
  | identity => simp [Hold.after, Creates]
  | read => simp [Hold.after, Creates]
  | size => simp [Hold.after, Creates]
  | truncate => simp [Hold.after, Creates]
  | sync => simp [Hold.after, Creates]
  | provision => simp [Hold.after, Creates]
  | close => simp [Hold.after, Creates]
  | write written offset bytes =>
      simp only [Hold.after, Creates, or_false]
      split <;> rfl

theorem after_initialised :
    (hold.after call reply).initialised file = (hold.initialised file || initialises file (.asked p call)) := by
  cases call with
  | write written offset bytes =>
      by_cases below : offset < 32
      · cases written <;> cases file <;> simp [Hold.after, initialises, Function.update, below]
      · simp [Hold.after, initialises, below]
  | «open» opened => cases reply <;> simp [Hold.after, initialises]
  | create made => cases reply <;> simp [Hold.after, initialises]
  | lock locked => cases reply <;> simp [Hold.after, initialises]
  | _ => simp [Hold.after, initialises]

-- Only a lock gives the lock.
theorem before_locked (locked : (hold.after call reply).locked = true) : hold.locked = true ∨ ∃ file, call = .lock file := by
  cases call with
  | lock file => exact .inr ⟨file, rfl⟩
  | close file =>
      simp only [Hold.after, Bool.and_eq_true] at locked
      exact .inl locked.1
  | write written offset bytes =>
      simp only [Hold.after] at locked
      split at locked <;> exact .inl locked
  | «open» opened => cases reply <;> exact .inl locked
  | create made => cases reply <;> exact .inl locked
  | _ => exact .inl locked

/-- A process that has the lock after a request is its owner. -/
theorem after_locked (reaction : Reaction w p call reply store owner) (permitted : permits hold call)
    (owned : hold.locked = true → w.owner = .process p) (locked : (hold.after call reply).locked = true) :
    owner = .process p := by
  have kept : hold.locked = true → call ≠ .close .database → owner = .process p := fun before other =>
    reaction_owner reaction (owned before) fun _ => other
  cases reaction with
  | locked free => rfl
  | busy taken => exact kept locked (by simp)
  | closed => simp [Hold.after] at locked
  | unclosed code => simp [Hold.after] at locked
  | lost code owns => simp [Hold.after] at locked
  | served call other =>
      rcases before_locked locked with before | ⟨file, rfl⟩
      · exact kept before other.2
      · exact absurd (congrArg Call.lock permitted.2.1) other.1
  | failed fault other =>
      rcases before_locked locked with before | ⟨file, rfl⟩
      · exact kept before other
      · cases fault with
        | before call store code known => exact kept locked other

end Reactions

section Invariant
variable {start : Store} {events : List Event} {event : Event} {w w' : World}

/-- A process is between two calls, or asks as its call may. -/
inductive Conforms (process : Process) : Prop where
  | idle (none : process.rest = none) (rests : Rests process.hold process.db)
  | busy (program : Op Answer) (some : process.rest = some program)
      (follows : Prog.Follows owning (fun hold result => Rests hold result.2) process.hold program)
      (closed : process.hold.closed = !process.db.database)
      (owns : process.hold.closed = false → process.hold.held .database = true → process.hold.locked = true)

/-- What holds of every world. -/
structure Sane (start : Store) (events : List Event) (w : World) : Prop where
  conforms : ∀ p, Conforms (w.process p)
  locks : ∀ p, (w.process p).hold.locked = true → w.owner = .process p
  kept : ∀ file, (start.disk? file).isSome = true → (w.store.disk? file).isSome = true
  made : ∀ p file, (w.process p).hold.made file = true → (w.store.disk? file).isSome = true ∧ start.disk? file = none
  alone : ∀ p q file, (w.process p).hold.made file = true → (w.process q).hold.made file = true → p = q
  marked : ∀ p file, (w.process p).hold.initialised file = true → (w.process p).hold.made file = true
  counted : ∀ p file, (w.process p).hold.made file = true →
    headers file events = if (w.process p).hold.initialised file then 1 else 0
  once : ∀ file, headers file events ≤ 1
  written : ∀ file, 0 < headers file events → (w.store.disk? file).isSome = true ∧ start.disk? file = none

theorem headers_append (file : File) (events : List Event) (event : Event) :
    headers file (events ++ [event]) = headers file events + if initialises file event then 1 else 0 := by
  rw [headers, headers, List.countP_append, List.countP_singleton]

theorem with_process (w : World) (p q : Nat) (process : Process) :
    (w.with p process).process q = if q = p then process else w.process q := Function.update_apply _ _ _ _

theorem sane_boot (start : Store) : Sane start [] (boot start) where
  conforms p := .idle rfl (empty_rests ⟨fun _ => rfl, rfl⟩ rfl rfl)
  locks p locked := by cases locked
  kept file there := there
  made p file made := by cases made
  alone p q file made := by cases made
  marked p file marked := by cases marked
  counted p file made := by cases made
  once file := Nat.zero_le _
  written file some := by cases some

-- A step that moves one process without a request.
theorem sane_with {process : Process} {p : Nat} {owner : Owner} (sane : Sane start events w)
    (quiet : ∀ file, initialises file event = false) (conforms : Conforms process)
    (locked : process.hold.locked = true → owner = .process p)
    (owned : ∀ q, q ≠ p → w.owner = .process q → owner = .process q)
    (made : ∀ file, process.hold.made file = true → (w.process p).hold.made file = true)
    (initialised : ∀ file, process.hold.made file = true →
      process.hold.initialised file = (w.process p).hold.initialised file)
    (marked : ∀ file, process.hold.initialised file = true → process.hold.made file = true) :
    Sane start (events ++ [event]) (World.with ⟨w.store, owner, w.process⟩ p process) := by
  have same : ∀ file, headers file (events ++ [event]) = headers file events := fun file => by
    rw [headers_append, quiet file]
    rfl
  have before : ∀ q file, ((World.with ⟨w.store, owner, w.process⟩ p process).process q).hold.made file = true →
      (w.process q).hold.made file = true := by
    intro q file
    rw [with_process]
    split
    · rename_i here
      rw [here]
      exact made file
    · exact id
  refine ⟨fun q => ?_, fun q => ?_, sane.kept, fun q file here => sane.made q file (before q file here),
    fun q r file here there => sane.alone q r file (before q file here) (before r file there), fun q file => ?_,
    fun q file here => ?_, fun file => (same file).symm ▸ sane.once file, fun file some => sane.written file ?_⟩
  · rw [with_process]
    split
    · exact conforms
    · exact sane.conforms q
  · rw [with_process]
    split
    · rename_i here
      rw [here]
      exact locked
    · rename_i other
      exact fun locked => owned q other (sane.locks q locked)
  · rw [with_process]
    split
    · exact marked file
    · exact sane.marked q file
  · have count := sane.counted q file (before q file here)
    rw [same, count]
    rw [with_process] at here ⊢
    by_cases moved : q = p
    · rw [if_pos moved] at here ⊢
      rw [initialised file here, moved]
    · rw [if_neg moved]
  · rw [← same file]
    exact some

-- A process that works on an open handle keeps the lock until it closes the database.
theorem after_owns {hold : Hold} {call : Call} {reply : Reply call} (permitted : permits hold call)
    (open_ : hold.closed = false) (owns : hold.held .database = true → hold.locked = true)
    (held : (hold.after call reply).held .database = true) : (hold.after call reply).locked = true := by
  cases call with
  | «open» file => exact absurd (open_.symm.trans permitted.1) (by decide)
  | create file => exact absurd (open_.symm.trans permitted.1) (by decide)
  | lock file => exact absurd (open_.symm.trans permitted.1) (by decide)
  | write file offset bytes =>
      by_cases below : offset < 32
      · simp only [Hold.after, if_pos below] at held ⊢
        exact owns held
      · simp only [Hold.after, if_neg below] at held ⊢
        exact owns held
  | close file =>
      cases file with
      | database => simp [Hold.after, Function.update] at held
      | wal =>
          have before : hold.held .database = true := by simpa [Hold.after, Function.update] using held
          simp [Hold.after, owns before]
  | _ => exact owns held

theorem after_closed {hold : Hold} {call : Call} {reply : Reply call} : (hold.after call reply).closed = hold.closed := by
  cases call with
  | «open» file => cases reply <;> rfl
  | create file => cases reply <;> rfl
  | lock file => cases reply <;> rfl
  | write file offset bytes =>
      simp only [Hold.after]
      split <;> rfl
  | _ => rfl

-- A header is asked for by a process that has made both files and has not asked for it before.
theorem header_request {hold : Hold} {p : Nat} {file : File} {call : Call} (permitted : permits hold call)
    (header : initialises file (.asked p call) = true) :
    hold.made file = true ∧ hold.initialised file = false := by
  cases call with
  | write written offset bytes =>
      obtain ⟨rfl, below⟩ : written = file ∧ offset < 32 := by simpa [initialises] using header
      obtain ⟨_, _, database, wal, fresh⟩ := permitted.2.2 below
      refine ⟨?_, fresh⟩
      cases written with
      | database => exact database
      | wal => exact wal
  | _ => cases header

theorem sane_asked {p : Nat} {call : Call} {next : Reply call → Op Answer} {reply : Reply call} {store : Store} {owner : Owner}
    (sane : Sane start events w) (running : (w.process p).rest = some (.ask call next))
    (reaction : Reaction w p call reply store owner) :
    Sane start (events ++ [.asked p call]) (World.with ⟨store, owner, w.process⟩ p
      ⟨(w.process p).db, some (next reply), (w.process p).hold.after call reply⟩) := by
  obtain ⟨program, same, follows, closed, owns⟩ : ∃ program, (w.process p).rest = some program ∧
      Prog.Follows owning (fun hold result => Rests hold result.2) (w.process p).hold program ∧
      (w.process p).hold.closed = !(w.process p).db.database ∧
      ((w.process p).hold.closed = false → (w.process p).hold.held .database = true → (w.process p).hold.locked = true) := by
    cases sane.conforms p with
    | idle none rests =>
        rw [running] at none
        cases none
    | busy program some follows closed owns => exact ⟨program, some, follows, closed, owns⟩
  rw [running] at same
  cases same
  have permitted : permits (w.process p).hold call := follows.1
  generalize movedEq : World.with ⟨store, owner, w.process⟩ p
    ⟨(w.process p).db, some (next reply), (w.process p).hold.after call reply⟩ = moved
  have here : (moved.process p).hold = (w.process p).hold.after call reply := by
    rw [← movedEq, with_process, if_pos rfl]
  have others : ∀ q, q ≠ p → moved.process q = w.process q := fun q other => by
    rw [← movedEq, with_process, if_neg other]
  have stored : moved.store = store ∧ moved.owner = owner := by
    rw [← movedEq]
    exact ⟨rfl, rfl⟩
  have before : ∀ q file, (moved.process q).hold.made file = true →
      (w.process q).hold.made file = true ∨ q = p ∧ Creates call reply file := by
    intro q file made
    by_cases same : q = p
    · rw [same, here, after_made] at made
      rw [same]
      exact made.imp_right fun creates => ⟨rfl, creates⟩
    · rw [others q same] at made
      exact .inl made
  -- A file that is created now has not been there.
  have fresh : ∀ file, Creates call reply file → (∀ q, (w.process q).hold.made file ≠ true) ∧ headers file events = 0 := by
    intro file creates
    have none := (reaction_creates reaction creates).1
    refine ⟨fun q made => ?_, ?_⟩
    · have there := (sane.made q file made).1
      rw [none] at there
      cases there
    · by_contra some
      have there := (sane.written file (by omega)).1
      rw [none] at there
      cases there
  have header : ∀ file, initialises file (.asked p call) = true → (w.process p).hold.made file = true ∧
      headers file events = 0 := by
    intro file header
    obtain ⟨made, unwritten⟩ := header_request permitted header
    refine ⟨made, ?_⟩
    have count := sane.counted p file made
    rwa [unwritten] at count
  refine ⟨fun q => ?_, fun q locked => ?_, fun file there => ?_, fun q file made => ?_, fun q r file made made' => ?_,
    fun q file marked => ?_, fun q file made => ?_, fun file => ?_, fun file some => ?_⟩
  · by_cases same : q = p
    · rw [same, ← movedEq, with_process, if_pos rfl]
      refine .busy (next reply) rfl (follows.2 reply) (after_closed.trans closed) fun open_ held => ?_
      have open_' : (w.process p).hold.closed = false := after_closed.symm.trans open_
      exact after_owns permitted open_' (owns open_') held
    · rw [others q same]
      exact sane.conforms q
  · rw [stored.2]
    by_cases same : q = p
    · rw [same, here] at locked
      rw [same]
      exact after_locked reaction permitted (sane.locks p) locked
    · rw [others q same] at locked
      exact reaction_owner reaction (sane.locks q locked) fun equal => absurd equal same
  · rw [stored.1]
    exact reaction_keeps reaction (sane.kept file there)
  · rw [stored.1]
    rcases before q file made with old | ⟨_, creates⟩
    · exact ⟨reaction_keeps reaction (sane.made q file old).1, (sane.made q file old).2⟩
    · refine ⟨(reaction_creates reaction creates).2, ?_⟩
      by_contra there
      have kept := sane.kept file (Option.isSome_iff_ne_none.mpr there)
      rw [(reaction_creates reaction creates).1] at kept
      cases kept
  · rcases before q file made with old | ⟨rfl, creates⟩ <;> rcases before r file made' with old' | ⟨rfl, creates'⟩
    · exact sane.alone q r file old old'
    · exact absurd old ((fresh file creates').1 q)
    · exact absurd old' ((fresh file creates).1 r)
    · rfl
  · by_cases same : q = p
    · rw [same, here] at marked ⊢
      rw [@after_initialised p] at marked
      rw [after_made]
      rcases Bool.or_eq_true _ _ ▸ marked with old | new
      · exact .inl (sane.marked p file old)
      · exact .inl (header file new).1
    · rw [others q same] at marked ⊢
      exact sane.marked q file marked
  · rw [headers_append]
    have moved' : (moved.process q).hold.initialised file =
        ((w.process q).hold.initialised file || decide (q = p) && initialises file (.asked p call)) := by
      by_cases same : q = p
      · rw [same, here, @after_initialised p]
        simp
      · rw [others q same]
        simp [same]
    rcases before q file made with old | ⟨rfl, creates⟩
    · cases asked : initialises file (.asked p call) with
      | true =>
          have same : q = p := sane.alone q p file old (header file asked).1
          rw [moved', asked, same, (header file asked).2]
          simp
      | false =>
          rw [moved', asked, sane.counted q file old]
          simp
    · have unasked : initialises file (.asked q call) = false := by
        cases call with
        | write => cases creates
        | _ => rfl
      have unmarked : (w.process q).hold.initialised file = false := by
        by_contra marked
        exact (fresh file creates).1 q (sane.marked q file (by simpa using marked))
      rw [moved', unmarked, unasked, (fresh file creates).2]
      simp
  · rw [headers_append]
    have most := sane.once file
    split
    · rename_i asked
      have none := (header file asked).2
      omega
    · omega
  · rw [headers_append] at some
    rw [stored.1]
    split at some
    · rename_i asked
      have there := sane.made p file (header file asked).1
      exact ⟨reaction_keeps reaction there.1, there.2⟩
    · have there := sane.written file some
      exact ⟨reaction_keeps reaction there.1, there.2⟩

theorem step_sane (sane : Sane start events w) (step : Step w event w') : Sane start (events ++ [event]) w' := by
  cases step with
  | called p act idle =>
      have rests : Rests (w.process p).hold (w.process p).db := by
        cases sane.conforms p with
        | idle none rests => exact rests
        | busy program some follows closed owns =>
            rw [idle] at some
            cases some
      refine sane_with sane (fun _ => rfl) (.busy _ rfl (perform_follows rests act) rfl fun open_ held => ?_)
        (sane.locks p) (fun _ _ owned => owned) (fun _ made => ?_) (fun _ made => ?_) (fun _ marked => ?_)
      · exact rests.locked.trans (rests.database.symm.trans held)
      · cases made
      · cases made
      · cases marked
  | asked running reaction => exact sane_asked sane running reaction
  | @returned p result db running =>
      have rests : Rests (w.process p).hold db := by
        cases sane.conforms p with
        | idle none rests =>
            rw [running] at none
            cases none
        | busy program some follows closed owns =>
            rw [running] at some
            cases some
            exact follows
      exact sane_with sane (fun _ => rfl) (.idle rfl rests) (sane.locks p) (fun _ _ owned => owned) (fun _ made => made)
        (fun _ _ => rfl) (sane.marked p)
  | exited p =>
      refine sane_with sane (fun _ => rfl) (.idle rfl (empty_rests ⟨fun _ => rfl, rfl⟩ rfl rfl)) (fun locked => ?_)
        (fun q other owned => ?_) (fun _ made => ?_) (fun _ made => ?_) (fun _ marked => ?_)
      · cases locked
      · have different : Owner.process q ≠ .process p := fun same => other (Owner.process.inj same)
        rw [owned, Owner.leave, if_neg different]
      · cases made
      · cases made
      · cases marked

theorem run_sane (run : Run (boot start) events w) : Sane start events w := by
  induction run with
  | start => exact sane_boot start
  | step before after ih => exact step_sane ih after

end Invariant

section Safety
variable {start : Store} {events : List Event} {w : World}

/-- A request that changes a file or makes it durable. -/
def Effects : Call → Prop
  | .write _ _ _ | .truncate _ _ | .sync _ | .provision _ => True
  | _ => False

theorem sane_permits (sane : Sane start events w) {p : Nat} {call : Call} (asks : w.Asks p call) :
    permits (w.process p).hold call := by
  obtain ⟨next, running⟩ := asks
  cases sane.conforms p with
  | idle none rests =>
      rw [running] at none
      cases none
  | busy program some follows closed owns =>
      rw [running] at some
      cases some
      exact follows.1

theorem sane_opened (sane : Sane start events w) {p : Nat} (opened : w.Opened p) : w.owner = .process p := by
  refine sane.locks p ?_
  cases sane.conforms p with
  | idle none rests => exact rests.locked.trans opened.1
  | busy program some follows closed owns => exact owns (by rw [closed, opened.1]; rfl) opened.2

end Safety

/-- In every interleaving of any number of processes one at most has an open handle, what changes a file
is asked for by the owner of the lock, and the pair headers are written once, by the call that has
created both files. -/
theorem single_owner {start : Store} {events : List Event} {w : World} (run : Run (boot start) events w) :
    (∀ p, (w.process p).rest = none → (w.process p).db.database = true → w.Opened p) ∧
    (∀ p q, w.Opened p → w.Opened q → p = q) ∧
    (∀ p call, w.Asks p call → Effects call → w.owner = .process p) ∧
    (∀ p file offset bytes, w.Asks p (.write file offset bytes) → offset < 32 →
      (offset = 0 ∧ ∃ identity, bytes = pairBytes identity file) ∧
        (w.process p).hold.made .database = true ∧ (w.process p).hold.made .wal = true) ∧
    (∀ p q file, (w.process p).hold.made file = true → (w.process q).hold.made file = true → p = q) ∧
    (∀ file, headers file events ≤ 1 ∧ (0 < headers file events → start.disk? file = none)) := by
  have sane := run_sane run
  refine ⟨fun p idle database => ⟨database, ?_⟩, fun p q opened opened' => ?_, fun p call asks effects => ?_,
    fun p file offset bytes asks below => ?_, sane.alone, fun file => ⟨sane.once file, fun some => (sane.written file some).2⟩⟩
  · cases sane.conforms p with
    | idle none rests => exact rests.database.trans database
    | busy program some follows closed owns =>
        rw [idle] at some
        cases some
  · exact Owner.process.inj ((sane_opened sane opened).symm.trans (sane_opened sane opened'))
  · have permitted := sane_permits sane asks
    refine sane.locks p ?_
    cases call with
    | write file offset bytes => exact permitted.1
    | truncate file size => exact permitted.1
    | sync file => exact permitted.1
    | provision file => exact permitted.1
    | _ => cases effects
  · obtain ⟨zero, header, database, wal, _⟩ := (sane_permits sane asks).2.2 below
    exact ⟨⟨zero, header⟩, database, wal⟩

-- A creator that is about to write its database header.
theorem creator_run : ∃ events w, Run (boot ⟨none, none, List.replicate 16 7⟩) events w ∧
    w.Asks 0 (.write .database 0 (pairBytes (List.replicate 16 7) .database)) := by
  have called := Run.step (.start (boot ⟨none, none, List.replicate 16 7⟩)) (.called 0 (.openPair .createNew batchScratch) rfl)
  have probed := Run.step called (.asked (p := 0) rfl (.served (.open .wal) (by decide)))
  have named := Run.step probed (.asked (p := 0) rfl (.served .identity (by decide)))
  have created := Run.step named (.asked (p := 0) rfl (.served (.create .database) (by decide)))
  have locked := Run.step created (.asked (p := 0) rfl (.locked rfl))
  have paired := Run.step locked (.asked (p := 0) rfl (.served (.create .wal) (by decide)))
  exact ⟨_, _, paired, _, rfl⟩

theorem single_owner_creator : ∃ events w, Run (boot ⟨none, none, List.replicate 16 7⟩) events w ∧ w.owner = .process 0 ∧
    (w.process 0).hold.made .wal = true := by
  obtain ⟨events, w, run, asks⟩ := creator_run
  have safe := single_owner run
  exact ⟨events, w, run, safe.2.2.1 0 _ asks trivial, (safe.2.2.2.1 0 _ _ _ asks (by decide)).2.2⟩

end Timelite.Sharing
