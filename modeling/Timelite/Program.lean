import Mathlib.Tactic

/-!
Programs as trees of backend requests. A backend serves each request in one
deterministic step and may instead fail it, leaving one of several states.
`run` is the execution in which nothing fails, `Exec` every execution in which
any request may fail and the machine may stop before or after any request.
`Does` is a triple for programs that give up at the first failure: it records
the undisturbed result and a property of every state in which the machine can
be stopped, and its rules compose such facts along `bind`. `Sanctions` is about
the requests themselves: each is one that may be made in the state it is made in.
-/
namespace Program
variable {Request : Type} {Reply : Request → Type} {State : Type}

inductive Prog (Reply : Request → Type) (α : Type) where
  | done (value : α)
  | ask (request : Request) (next : Reply request → Prog Reply α)

def Prog.bind {α β : Type} : Prog Reply α → (α → Prog Reply β) → Prog Reply β
  | .done value, next => next value
  | .ask request rest, next => .ask request fun reply => (rest reply).bind next

instance : Monad (Prog Reply) where
  pure := .done
  bind := Prog.bind

@[simp] theorem pure_done {α : Type} (value : α) : (pure value : Prog Reply α) = .done value := rfl

@[simp] theorem bind_done {α β : Type} (value : α) (next : α → Prog Reply β) :
    (Prog.done value).bind next = next value := rfl

@[simp] theorem bind_eq {α β : Type} (program : Prog Reply α) (next : α → Prog Reply β) :
    (program >>= next) = program.bind next := rfl

theorem bind_assoc {α β γ : Type} (program : Prog Reply α) (first : α → Prog Reply β)
    (second : β → Prog Reply γ) :
    (program.bind first).bind second = program.bind fun value => (first value).bind second := by
  induction program with
  | done value => rfl
  | ask request rest ih =>
      simp only [Prog.bind]
      congr 1
      funext reply
      exact ih reply

structure Backend (Reply : Request → Type) (State : Type) where
  serve : (request : Request) → State → Reply request × State
  fault : (request : Request) → State → Reply request → State → Prop

variable (backend : Backend Reply State)

def Prog.run {α : Type} : Prog Reply α → State → α × State
  | .done value, state => (value, state)
  | .ask request next, state =>
      let served := backend.serve request state
      (next served.1).run served.2

@[simp] theorem run_done {α : Type} (value : α) (state : State) :
    (Prog.done value : Prog Reply α).run backend state = (value, state) := rfl

theorem run_bind {α β : Type} (program : Prog Reply α) (next : α → Prog Reply β) (state : State) :
    (program.bind next).run backend state =
      (next (program.run backend state).1).run backend (program.run backend state).2 := by
  induction program generalizing state with
  | done value => rfl
  | ask request rest ih => exact ih _ _

/-- Every execution. `none` is a machine that stopped, between requests or
after a request that was cut short. -/
inductive Exec {α : Type} : Prog Reply α → State → Option α → State → Prop where
  | done (value : α) (state : State) : Exec (.done value) state (some value) state
  | stop (program : Prog Reply α) (state : State) : Exec program state none state
  | serve {request : Request} {next : Reply request → Prog Reply α} {state after : State}
      {outcome : Option α}
      (rest : Exec (next (backend.serve request state).1) (backend.serve request state).2 outcome after) :
      Exec (.ask request next) state outcome after
  | fail {request : Request} {next : Reply request → Prog Reply α} {state middle after : State}
      {reply : Reply request} {outcome : Option α}
      (fault : backend.fault request state reply middle)
      (rest : Exec (next reply) middle outcome after) :
      Exec (.ask request next) state outcome after

theorem exec_run {α : Type} (program : Prog Reply α) (state : State) :
    Exec backend program state (some (program.run backend state).1) (program.run backend state).2 := by
  induction program generalizing state with
  | done value => exact .done value state
  | ask request next ih => exact .serve (ih _ _)

/-- The state in which the machine stops after this many requests, or at the end. -/
def Prog.after {α : Type} : Nat → Prog Reply α → State → State
  | 0, _, state => state
  | _ + 1, .done _, state => state
  | count + 1, .ask request next, state =>
      let served := backend.serve request state
      (next served.1).after count served.2

theorem exec_after {α : Type} (count : Nat) (program : Prog Reply α) (state : State) :
    Exec backend program state none (program.after backend count state) := by
  induction count generalizing program state with
  | zero => exact .stop program state
  | succ count ih =>
      cases program with
      | done value => exact .stop _ _
      | ask request next => exact .serve (ih _ _)

theorem exec_done {α : Type} {value : α} {state after : State} {outcome : Option α}
    (execution : Exec backend (.done value : Prog Reply α) state outcome after) :
    after = state ∧ ∀ result, outcome = some result → result = value := by
  cases execution with
  | done => exact ⟨rfl, fun result same => (Option.some.inj same).symm⟩
  | stop => exact ⟨rfl, fun result same => by cases same⟩

-- The machine may also stop where a program has returned.
theorem exec_stopped {α : Type} {program : Prog Reply α} {state after : State} {outcome : Option α}
    (execution : Exec backend program state outcome after) : Exec backend program state none after := by
  induction execution with
  | done value state => exact .stop _ _
  | stop program state => exact .stop _ _
  | serve rest ih => exact .serve ih
  | fail fault rest ih => exact .fail fault ih

-- An execution of a sequence stops inside the first part, or goes through it.
theorem exec_bind {α β : Type} {program : Prog Reply α} {next : α → Prog Reply β}
    {state after : State} {outcome : Option β}
    (execution : Exec backend (program.bind next) state outcome after) :
    (outcome = none ∧ Exec backend program state none after) ∨
      ∃ value middle, Exec backend program state (some value) middle ∧
        Exec backend (next value) middle outcome after := by
  induction program generalizing state with
  | done value => exact .inr ⟨value, state, .done value state, execution⟩
  | ask request rest ih =>
      cases execution with
      | stop => exact .inl ⟨rfl, .stop _ _⟩
      | serve tail =>
          rcases ih _ tail with ⟨ended, inside⟩ | ⟨value, middle, first, second⟩
          · exact .inl ⟨ended, .serve inside⟩
          · exact .inr ⟨value, middle, .serve first, second⟩
      | fail fault tail =>
          rcases ih _ tail with ⟨ended, inside⟩ | ⟨value, middle, first, second⟩
          · exact .inl ⟨ended, .fail fault inside⟩
          · exact .inr ⟨value, middle, .fail fault first, second⟩

section Requests
variable {α β : Type} {program : Prog Reply α} {state after : State} {outcome : Option α}
  {requests : List Request}

/-- An execution together with the requests it makes, failed ones included. -/
inductive Issues {α : Type} : Prog Reply α → State → List Request → Option α → State → Prop where
  | done (value : α) (state : State) : Issues (.done value) state [] (some value) state
  | stop (program : Prog Reply α) (state : State) : Issues program state [] none state
  | serve {request : Request} {next : Reply request → Prog Reply α} {state after : State}
      {outcome : Option α} {requests : List Request}
      (rest : Issues (next (backend.serve request state).1) (backend.serve request state).2 requests outcome after) :
      Issues (.ask request next) state (request :: requests) outcome after
  | fail {request : Request} {next : Reply request → Prog Reply α} {state middle after : State}
      {reply : Reply request} {outcome : Option α} {requests : List Request}
      (fault : backend.fault request state reply middle)
      (rest : Issues (next reply) middle requests outcome after) :
      Issues (.ask request next) state (request :: requests) outcome after

theorem issues_exec (issued : Issues backend program state requests outcome after) :
    Exec backend program state outcome after := by
  induction issued with
  | done value state => exact .done value state
  | stop program state => exact .stop program state
  | serve rest ih => exact .serve ih
  | fail fault rest ih => exact .fail fault ih

theorem exec_issues (execution : Exec backend program state outcome after) :
    ∃ requests, Issues backend program state requests outcome after := by
  induction execution with
  | done value state => exact ⟨_, .done value state⟩
  | stop program state => exact ⟨_, .stop program state⟩
  | serve rest ih =>
      obtain ⟨requests, issued⟩ := ih
      exact ⟨_, .serve issued⟩
  | fail fault rest ih =>
      obtain ⟨requests, issued⟩ := ih
      exact ⟨_, .fail fault issued⟩

theorem issues_done {value : α} (issued : Issues backend (.done value : Prog Reply α) state requests outcome after) :
    requests = [] ∧ after = state ∧ ∀ result, outcome = some result → result = value := by
  cases issued with
  | done => exact ⟨rfl, rfl, fun result same => (Option.some.inj same).symm⟩
  | stop => exact ⟨rfl, rfl, fun result same => by cases same⟩

theorem issues_bind {next : α → Prog Reply β} {outcome : Option β}
    (issued : Issues backend (program.bind next) state requests outcome after) :
    (outcome = none ∧ Issues backend program state requests none after) ∨
      ∃ value middle front back, requests = front ++ back ∧
        Issues backend program state front (some value) middle ∧ Issues backend (next value) middle back outcome after := by
  induction program generalizing state requests with
  | done value => exact .inr ⟨value, state, [], requests, rfl, .done value state, issued⟩
  | ask request rest ih =>
      cases issued with
      | stop => exact .inl ⟨rfl, .stop _ _⟩
      | serve tail =>
          rcases ih _ tail with ⟨ended, inside⟩ | ⟨value, middle, front, back, rfl, first, second⟩
          · exact .inl ⟨ended, .serve inside⟩
          · exact .inr ⟨value, middle, request :: front, back, rfl, .serve first, second⟩
      | fail fault tail =>
          rcases ih _ tail with ⟨ended, inside⟩ | ⟨value, middle, front, back, rfl, first, second⟩
          · exact .inl ⟨ended, .fail fault inside⟩
          · exact .inr ⟨value, middle, request :: front, back, rfl, .fail fault first, second⟩

end Requests

/-- After a failure the program only gives up: it stays in safe states and any
result it returns is a failure. -/
def Quits {α : Type} (safe : State → Prop) (failed : α → Prop) (program : Prog Reply α)
    (state : State) : Prop :=
  ∀ outcome after, Exec backend program state outcome after →
    safe after ∧ ∀ result, outcome = some result → failed result

theorem quits_done {α : Type} {safe : State → Prop} {failed : α → Prop} {value : α} {state : State}
    (kept : safe state) (bad : failed value) : Quits backend safe failed (.done value) state := by
  intro outcome after execution
  obtain ⟨same, result⟩ := exec_done backend execution
  refine ⟨same ▸ kept, fun value' found => ?_⟩
  rw [result value' found]
  exact bad

theorem quits_bind {α β : Type} {safe : State → Prop} {failed : α → Prop} {failed' : β → Prop}
    {program : Prog Reply α} {next : α → Prog Reply β} {state : State}
    (first : Quits backend safe failed program state)
    (rest : ∀ value middle, failed value → safe middle → Quits backend safe failed' (next value) middle) :
    Quits backend safe failed' (program.bind next) state := by
  intro outcome after execution
  rcases exec_bind backend execution with ⟨ended, inside⟩ | ⟨value, middle, left, right⟩
  · exact ⟨(first _ _ inside).1, fun result found => by rw [ended] at found; cases found⟩
  · have reached := first _ _ left
    exact rest value middle (reached.2 value rfl) reached.1 _ _ right

/-- The triple. `Does safe failed program state value after`: undisturbed, the
program returns `value` in `after`; disturbed, it stays in safe states and
returns only failures. -/
inductive Does {α : Type} (safe : State → Prop) (failed : α → Prop) :
    Prog Reply α → State → α → State → Prop where
  | done {value : α} {state : State} (kept : safe state) :
      Does safe failed (.done value) state value state
  | ask {request : Request} {next : Reply request → Prog Reply α} {state after : State} {value : α}
      (kept : safe state)
      (faults : ∀ reply middle, backend.fault request state reply middle →
        Quits backend safe failed (next reply) middle)
      (rest : Does safe failed (next (backend.serve request state).1)
        (backend.serve request state).2 value after) :
      Does safe failed (.ask request next) state value after

variable {backend}
variable {α β : Type} {safe : State → Prop} {failed : α → Prop} {failed' : β → Prop}

theorem Does.run_eq {program : Prog Reply α} {state after : State} {value : α}
    (triple : Does backend safe failed program state value after) :
    program.run backend state = (value, after) := by
  induction triple with
  | done kept => rfl
  | ask kept faults rest ih => exact ih

theorem Does.safe_before {program : Prog Reply α} {state after : State} {value : α}
    (triple : Does backend safe failed program state value after) : safe state := by
  cases triple with
  | done kept => exact kept
  | ask kept faults rest => exact kept

theorem Does.safe_after {program : Prog Reply α} {state after : State} {value : α}
    (triple : Does backend safe failed program state value after) : safe after := by
  induction triple with
  | done kept => exact kept
  | ask kept faults rest ih => exact ih

/-- Soundness: every execution stays safe, and a result is the undisturbed one
or a failure. -/
theorem Does.sound {program : Prog Reply α} {state after after' : State} {value : α}
    {outcome : Option α} (triple : Does backend safe failed program state value after)
    (execution : Exec backend program state outcome after') :
    safe after' ∧ ∀ result, outcome = some result →
      (result = value ∧ after' = after) ∨ failed result := by
  induction triple generalizing outcome with
  | done kept =>
      obtain ⟨same, result⟩ := exec_done backend execution
      exact ⟨same ▸ kept, fun value' found => .inl ⟨result value' found, same⟩⟩
  | ask kept faults rest ih =>
      cases execution with
      | stop => exact ⟨kept, fun result found => by cases found⟩
      | serve tail => exact ih tail
      | fail fault tail =>
          have quit := faults _ _ fault _ _ tail
          exact ⟨quit.1, fun result found => .inr (quit.2 result found)⟩

/-- The first request of a triple leaves a safe state, served or failed. -/
theorem Does.first {request : Request} {next : Reply request → Prog Reply α} {state after : State} {value : α}
    (triple : Does backend safe failed (.ask request next) state value after) :
    safe (backend.serve request state).2 ∧
      ∀ reply middle, backend.fault request state reply middle → safe middle :=
  ⟨(triple.sound (.serve (.stop _ _))).1, fun _ _ fault => (triple.sound (.fail fault (.stop _ _))).1⟩

theorem Does.weaken {safe' : State → Prop} {weaker : α → Prop} {program : Prog Reply α}
    {state after : State} {value : α}
    (triple : Does backend safe failed program state value after)
    (implied : ∀ state, safe state → safe' state) (bad : ∀ value, failed value → weaker value) :
    Does backend safe' weaker program state value after := by
  induction triple with
  | done kept => exact .done (implied _ kept)
  | ask kept faults rest ih =>
      refine .ask (implied _ kept) (fun reply middle fault outcome last execution => ?_) ih
      have quit := faults reply middle fault outcome last execution
      exact ⟨implied _ quit.1, fun result found => bad _ (quit.2 result found)⟩

/-- Sequencing: a failed first part must give up in the second. -/
theorem Does.bind {program : Prog Reply α} {next : α → Prog Reply β} {state middle after : State}
    {value : α} {result : β}
    (first : Does backend safe failed program state value middle)
    (quits : ∀ value state, failed value → safe state → Quits backend safe failed' (next value) state)
    (second : Does backend safe failed' (next value) middle result after) :
    Does backend safe failed' (program.bind next) state result after := by
  induction first with
  | done kept => exact second
  | ask kept faults rest ih =>
      refine .ask kept (fun reply last fault => ?_) (ih second)
      exact quits_bind backend (faults reply last fault) quits

variable (backend)

/-- A program that only observes: its requests change nothing, served or
failed, and a failed request ends it. -/
def Observes (failed : α → Prop) : Prog Reply α → Prop
  | .done _ => True
  | .ask request next =>
      (∀ state, (backend.serve request state).2 = state) ∧
      (∀ state reply after, backend.fault request state reply after →
        after = state ∧ ∃ value, failed value ∧ next reply = .done value) ∧
      ∀ reply, Observes failed (next reply)

variable {backend}

theorem observes_bind {program : Prog Reply α} {next : α → Prog Reply β}
    (first : Observes backend failed program)
    (stops : ∀ value, failed value → ∃ result, failed' result ∧ next value = .done result)
    (rest : ∀ value, Observes backend failed' (next value)) :
    Observes backend failed' (program.bind next) := by
  induction program with
  | done value => exact rest value
  | ask request tail ih =>
      refine ⟨first.1, fun state reply after fault => ?_, fun reply => ih reply (first.2.2 reply)⟩
      obtain ⟨same, value, bad, ended⟩ := first.2.1 state reply after fault
      obtain ⟨result, worse, stopped⟩ := stops value bad
      refine ⟨same, result, worse, ?_⟩
      change (tail reply).bind next = .done result
      rw [ended, bind_done, stopped]

theorem Observes.issues {program : Prog Reply α} (observes : Observes backend failed program) {state after : State}
    {requests : List Request} {outcome : Option α} (issued : Issues backend program state requests outcome after) :
    after = state ∧ ∀ request ∈ requests, ∀ state, (backend.serve request state).2 = state := by
  induction issued with
  | done value state => exact ⟨rfl, fun request none => by cases none⟩
  | stop program state => exact ⟨rfl, fun request none => by cases none⟩
  | @serve request next state after outcome requests rest ih =>
      obtain ⟨same, quiet⟩ := ih (observes.2.2 _)
      refine ⟨same.trans (observes.1 state), fun other among => ?_⟩
      rcases List.mem_cons.mp among with rfl | later
      · exact observes.1
      · exact quiet other later
  | @fail request next state middle after reply outcome requests fault rest ih =>
      obtain ⟨same, quiet⟩ := ih (observes.2.2 _)
      refine ⟨same.trans (observes.2.1 state reply middle fault).1, fun other among => ?_⟩
      rcases List.mem_cons.mp among with rfl | later
      · exact observes.1
      · exact quiet other later

theorem Observes.run_state {program : Prog Reply α} (observes : Observes backend failed program)
    (state : State) : (program.run backend state).2 = state := by
  induction program generalizing state with
  | done value => rfl
  | ask request next ih =>
      simp only [Prog.run]
      rw [observes.1 state]
      exact ih _ (observes.2.2 _) state

theorem Observes.does {program : Prog Reply α} (observes : Observes backend failed program)
    {state : State} (kept : safe state) :
    Does backend safe failed program state (program.run backend state).1 state := by
  induction program with
  | done value => exact .done kept
  | ask request next ih =>
      refine .ask kept (fun reply middle fault => ?_) ?_
      · obtain ⟨same, value, bad, ended⟩ := observes.2.1 state reply middle fault
        rw [same, ended]
        exact quits_done backend kept bad
      · have tail := ih (backend.serve request state).1 (observes.2.2 _)
        simpa only [Prog.run, observes.1 state] using tail

-- The form used with a computed result.
theorem Observes.does_of_run {program : Prog Reply α} (observes : Observes backend failed program)
    {state after : State} {value : α} (kept : safe state)
    (ran : program.run backend state = (value, after)) :
    Does backend safe failed program state value state := by
  have triple : Does backend safe failed program state _ state := observes.does kept
  rwa [ran] at triple

/-- Every result the program can return, whatever the replies. -/
def Prog.Every (holds : α → Prop) : Prog Reply α → Prop
  | .done value => holds value
  | .ask _ next => ∀ reply, (next reply).Every holds

theorem every_bind {holds : α → Prop} {holds' : β → Prop} {program : Prog Reply α}
    {next : α → Prog Reply β} (first : program.Every holds)
    (rest : ∀ value, holds value → (next value).Every holds') : (program.bind next).Every holds' := by
  induction program with
  | done value => exact rest value first
  | ask request tail ih => exact fun reply => ih reply (first reply)

theorem every_mono {holds holds' : α → Prop} {program : Prog Reply α} (every : program.Every holds)
    (implied : ∀ value, holds value → holds' value) : program.Every holds' := by
  induction program with
  | done value => exact implied value every
  | ask request next ih => exact fun reply => ih reply (every reply)

theorem every_true (program : Prog Reply α) : program.Every fun _ => True := by
  induction program with
  | done value => trivial
  | ask request next ih => exact fun reply => ih reply

theorem Prog.Every.exec {holds : α → Prop} {program : Prog Reply α} {state after : State}
    {outcome : Option α} (every : program.Every holds)
    (execution : Exec backend program state outcome after) :
    ∀ value, outcome = some value → holds value := by
  induction execution with
  | done value state =>
      intro result found
      exact Option.some.inj found ▸ every
  | stop program state =>
      intro result found
      cases found
  | serve rest ih => exact ih (every _)
  | fail fault rest ih => exact ih (every _)

section Sanctions
variable {may : Request → State → Prop} {state : State}

variable (backend) in
/-- Some execution makes the request in this state. -/
inductive Asked : Prog Reply α → State → Request → State → Prop where
  | here {request : Request} {next : Reply request → Prog Reply α} {state : State} :
      Asked (.ask request next) state request state
  | serve {request asked : Request} {next : Reply request → Prog Reply α} {state during : State}
      (later : Asked (next (backend.serve request state).1) (backend.serve request state).2 asked during) :
      Asked (.ask request next) state asked during
  | fail {request asked : Request} {next : Reply request → Prog Reply α} {state middle during : State}
      {reply : Reply request} (fault : backend.fault request state reply middle)
      (later : Asked (next reply) middle asked during) : Asked (.ask request next) state asked during

variable (backend) in
/-- Whatever fails, every request is one that may be made in the state it is made in. -/
def Sanctions (may : Request → State → Prop) (program : Prog Reply α) (state : State) : Prop :=
  ∀ request during, Asked backend program state request during → may request during

theorem sanctions_done {value : α} : Sanctions backend may (.done value : Prog Reply α) state := by
  intro request during asked
  cases asked

theorem sanctions_ask {request : Request} {next : Reply request → Prog Reply α} (allowed : may request state)
    (faults : ∀ reply middle, backend.fault request state reply middle → Sanctions backend may (next reply) middle)
    (rest : Sanctions backend may (next (backend.serve request state).1) (backend.serve request state).2) :
    Sanctions backend may (.ask request next) state := by
  intro asked during inside
  cases inside with
  | here => exact allowed
  | serve later => exact rest _ _ later
  | fail fault later => exact faults _ _ fault _ _ later

-- A request of a sequence is one of the first part, or one of the rest.
theorem sanctions_bind {program : Prog Reply α} {next : α → Prog Reply β}
    (first : Sanctions backend may program state)
    (rest : ∀ value middle, Exec backend program state (some value) middle → Sanctions backend may (next value) middle) :
    Sanctions backend may (program.bind next) state := by
  induction program generalizing state with
  | done value => exact rest value state (.done value state)
  | ask request tail ih =>
      refine sanctions_ask (first _ _ .here) (fun reply middle fault => ?_) ?_
      · exact ih reply (fun asked during inside => first _ _ (.fail fault inside)) fun value last execution =>
          rest value last (.fail fault execution)
      · exact ih _ (fun asked during inside => first _ _ (.serve inside)) fun value last execution =>
          rest value last (.serve execution)

/-- After a triple a sequence goes on from the undisturbed result, or from a failure. -/
theorem Does.sanctions {program : Prog Reply α} {after : State} {value : α} {next : α → Prog Reply β}
    (triple : Does backend safe failed program state value after) (first : Sanctions backend may program state)
    (stops : ∀ result middle, failed result → Sanctions backend may (next result) middle)
    (rest : Sanctions backend may (next value) after) : Sanctions backend may (program.bind next) state := by
  refine sanctions_bind first fun result middle execution => ?_
  rcases (triple.sound execution).2 result rfl with ⟨rfl, rfl⟩ | bad
  · exact rest
  · exact stops result middle bad

theorem Observes.sanctions {program : Prog Reply α} (observes : Observes backend failed program)
    (quiet : ∀ request state, (∀ state, (backend.serve request state).2 = state) → may request state) :
    Sanctions backend may program state := by
  induction program with
  | done value => exact sanctions_done
  | ask request next ih =>
      refine sanctions_ask (quiet _ _ observes.1) (fun reply middle fault => ?_) ?_
      · rw [(observes.2.1 state reply middle fault).1]
        exact ih reply (observes.2.2 reply)
      · rw [observes.1 state]
        exact ih _ (observes.2.2 _)

/-- What sanctioned requests keep, served or failed, holds wherever a program stops. -/
theorem exec_sanctions {inside : State → Prop} {program : Prog Reply α} {after : State} {outcome : Option α}
    (steps : ∀ request state, may request state → inside state → inside (backend.serve request state).2 ∧
      ∀ reply middle, backend.fault request state reply middle → inside middle)
    (sanctions : Sanctions backend may program state) (start : inside state)
    (execution : Exec backend program state outcome after) : inside after := by
  induction execution with
  | done value state => exact start
  | stop program state => exact start
  | serve rest ih =>
      exact ih (fun asked during later => sanctions _ _ (.serve later)) (steps _ _ (sanctions _ _ .here) start).1
  | fail fault rest ih =>
      exact ih (fun asked during later => sanctions _ _ (.fail fault later))
        ((steps _ _ (sanctions _ _ .here) start).2 _ _ fault)

end Sanctions

end Program
