import Timelite.Discipline

/-!
Programs whose requests are served by programs of a lower level. There a request is
an event that may do one of several things to the state. A lower program returns an
option: without a value it has given up waiting.
-/
namespace Lowering
open Program
variable {Request Lower State Low Keep Phase : Type} {Reply : Request → Type} {Reply' : Lower → Type} {α β : Type}

/-- Every execution over a relation between states and events. `none` is a program
that was stopped. -/
inductive Performs {α : Type} (step : State → Event Reply → State → Prop) : Prog Reply α → State → Option α → State → Prop where
  | done (value : α) (state : State) : Performs step (.done value) state (some value) state
  | stop (program : Prog Reply α) (state : State) : Performs step program state none state
  | ask {request : Request} {next : Reply request → Prog Reply α} {state middle last : State} {reply : Reply request}
      {outcome : Option α} (first : step state ⟨request, reply⟩ middle) (rest : Performs step (next reply) middle outcome last) :
      Performs step (.ask request next) state outcome last

/-- Goes on with what was returned. -/
def chain (next : α → Prog Reply (Option β)) : Option α → Prog Reply (Option β)
  | none => .done none
  | some value => next value

section Rules
variable {step : State → Event Reply → State → Prop} {cut : State → Prop} {post : α → State → Prop} {post' : β → State → Prop}
  {state : State}

/-- Wherever the program is stopped or gives up `cut` holds, and where it returns `post`. -/
def Meets (step : State → Event Reply → State → Prop) (cut : State → Prop) (post : α → State → Prop) (program : Prog Reply (Option α))
    (state : State) : Prop :=
  ∀ outcome last, Performs step program state outcome last →
    (outcome.join = none → cut last) ∧ ∀ value, outcome.join = some value → post value last

theorem meets_done {value : α} (kept : cut state) (here : post value state) : Meets step cut post (.done (some value)) state := by
  intro outcome last performs
  cases performs with
  | done => exact ⟨nofun, fun _ same => by cases same; exact here⟩
  | stop => exact ⟨fun _ => kept, nofun⟩

theorem meets_none (kept : cut state) : Meets step cut post (.done none) state := by
  intro outcome last performs
  cases performs with
  | done => exact ⟨fun _ => kept, nofun⟩
  | stop => exact ⟨fun _ => kept, nofun⟩

theorem meets_ask {request : Request} {next : Reply request → Prog Reply (Option α)} (kept : cut state)
    (rest : ∀ reply middle, step state ⟨request, reply⟩ middle → Meets step cut post (next reply) middle) :
    Meets step cut post (.ask request next) state := by
  intro outcome last performs
  cases performs with
  | stop => exact ⟨fun _ => kept, nofun⟩
  | ask first later => exact rest _ _ first _ _ later

/-- A run is an execution where every service is a step. -/
theorem performs_run {backend : Backend Reply State}
    (steps : ∀ request state, step state ⟨request, (backend.serve request state).1⟩ (backend.serve request state).2) (program : Prog Reply α)
    (state : State) : Performs step program state (some (program.run backend state).1) (program.run backend state).2 := by
  induction program generalizing state with
  | done value => exact .done value state
  | ask request next ih => exact .ask (steps request state) (ih _ _)

theorem performs_bind {γ : Type} {program : Prog Reply γ} {next : γ → Prog Reply α} {outcome : Option α} {last : State}
    (performs : Performs step (program.bind next) state outcome last) :
    (outcome = none ∧ Performs step program state none last) ∨
      ∃ value middle, Performs step program state (some value) middle ∧ Performs step (next value) middle outcome last := by
  induction program generalizing state with
  | done value => exact .inr ⟨value, state, .done value state, performs⟩
  | ask request rest ih =>
      cases performs with
      | stop => exact .inl ⟨rfl, .stop _ _⟩
      | ask first later =>
          rcases ih _ later with ⟨ended, inside⟩ | ⟨value, middle, front, back⟩
          · exact .inl ⟨ended, .ask first inside⟩
          · exact .inr ⟨value, middle, .ask first front, back⟩

theorem meets_bind {program : Prog Reply (Option β)} {next : β → Prog Reply (Option α)}
    (first : Meets step cut post' program state)
    (rest : ∀ value middle, post' value middle → Meets step cut post (next value) middle) :
    Meets step cut post (program.bind (chain next)) state := by
  intro outcome last performs
  rcases performs_bind performs with ⟨rfl, inside⟩ | ⟨value, middle, front, back⟩
  · exact ⟨fun _ => (first _ _ inside).1 rfl, nofun⟩
  · have here := first _ _ front
    cases value with
    | none =>
        cases back with
        | done => exact ⟨fun _ => here.1 rfl, nofun⟩
        | stop => exact ⟨fun _ => here.1 rfl, nofun⟩
    | some value => exact rest value middle (here.2 value rfl) _ _ back

theorem meets_mono {cut' : State → Prop} {weaker : α → State → Prop} {program : Prog Reply (Option α)}
    (meets : Meets step cut post program state) (kept : ∀ state, cut state → cut' state)
    (implied : ∀ value state, post value state → weaker value state) : Meets step cut' weaker program state := by
  intro outcome last performs
  have here := meets outcome last performs
  exact ⟨fun ended => kept _ (here.1 ended), fun value found => implied _ _ (here.2 value found)⟩

end Rules

section Fallible
variable {ε : Type}

/-- A program that returns an error or its outputs, unless it has given up waiting. -/
def Fallible (Reply : Request → Type) (ε α : Type) : Type := Prog Reply (Option (Except ε α))

namespace Fallible

def fail (error : ε) : Fallible Reply ε α := .done (some (.error error))

def examine (first : Fallible Reply ε α) (next : Except ε α → Fallible Reply ε β) : Fallible Reply ε β := Prog.bind first (chain next)

def proceed (next : α → Fallible Reply ε β) : Except ε α → Fallible Reply ε β
  | .ok value => next value
  | .error error => fail error

instance : Monad (Fallible Reply ε) where
  pure value := .done (some (.ok value))
  bind first next := examine first (proceed next)

def require (condition : Prop) [Decidable condition] (error : ε) : Fallible Reply ε Unit :=
  if condition then pure () else fail error

end Fallible

variable {step : State → Event Reply → State → Prop} {cut : State → Prop} {post : Except ε α → State → Prop}
  {post' : Except ε β → State → Prop} {state : State}

theorem meets_give {value : α} (kept : cut state) (here : post (.ok value) state) :
    Meets step cut post (pure value : Fallible Reply ε α) state := meets_done kept here

theorem meets_fail {error : ε} (kept : cut state) (here : post (.error error) state) :
    Meets step cut post (Fallible.fail error : Fallible Reply ε α) state := meets_done kept here

theorem meets_examine {first : Fallible Reply ε β} {next : Except ε β → Fallible Reply ε α} (front : Meets step cut post' first state)
    (rest : ∀ result middle, post' result middle → Meets step cut post (next result) middle) :
    Meets step cut post (Fallible.examine first next) state := meets_bind front rest

theorem meets_proceed {first : Fallible Reply ε β} {next : β → Fallible Reply ε α} (front : Meets step cut post' first state)
    (good : ∀ value middle, post' (.ok value) middle → Meets step cut post (next value) middle)
    (bad : ∀ error middle, post' (.error error) middle → cut middle ∧ post (.error error) middle) :
    Meets step cut post (first >>= next : Fallible Reply ε α) state := by
  refine meets_examine front fun result middle here => ?_
  cases result with
  | ok value => exact good value middle here
  | error error => exact meets_fail (bad error middle here).1 (bad error middle here).2

theorem meets_require {condition : Prop} [Decidable condition] {error : ε} {next : Unit → Fallible Reply ε α}
    (good : condition → Meets step cut post (next ()) state) (bad : ¬ condition → cut state ∧ post (.error error) state) :
    Meets step cut post (Fallible.require condition error >>= next : Fallible Reply ε α) state := by
  unfold Fallible.require
  by_cases holds : condition
  · rw [if_pos holds]
    exact good holds
  · rw [if_neg holds]
    exact meets_fail (bad holds).1 (bad holds).2

end Fallible

section Embedding
variable {inject : Request → Lower} {answer : (request : Request) → Reply' (inject request) → Reply request}
  {step : State → Event Reply → State → Prop} {step' : State → Event Reply' → State → Prop} {cut : State → Prop}
  {post : α → State → Prop}
  {state : State}

/-- A program over some of the requests of a lower level. -/
def embed (inject : Request → Lower) (answer : (request : Request) → Reply' (inject request) → Reply request) : Prog Reply α → Prog Reply' α
  | .done value => .done value
  | .ask request next => .ask (inject request) fun reply => embed inject answer (next (answer request reply))

theorem meets_embed {program : Prog Reply (Option α)} (meets : Meets step cut post program state)
    (steps : ∀ state request reply next, step' state ⟨inject request, reply⟩ next → step state ⟨request, answer request reply⟩ next) :
    Meets step' cut post (embed inject answer program) state := by
  intro outcome last performs
  refine meets outcome last ?_
  clear meets
  induction program generalizing state with
  | done value =>
      cases performs with
      | done => exact .done _ _
      | stop => exact .stop _ _
  | ask request next ih =>
      cases performs with
      | stop => exact .stop _ _
      | ask first rest => exact .ask (steps _ _ _ _ first) (ih _ rest)

end Embedding

section Keeping

/-- What is kept stays as it was. -/
def keeping {ε : Type} (keep : Keep) (program : Fallible Reply ε α) : Prog Reply (Option (Except ε α × Keep)) :=
  Prog.bind program (chain fun result => .done (some (result, keep)))

/-- It is changed where the program returns a value. -/
def acquiring {ε : Type} (keep : Keep) (change : β → Keep) (program : Fallible Reply ε β) : Prog Reply (Option (Except ε Unit × Keep)) :=
  Prog.bind program (chain fun
    | .ok value => .done (some (.ok (), change value))
    | .error error => .done (some (.error error, keep)))

end Keeping

section Lowering
variable {backend : Backend Reply State} {step : Low → Event Reply' → Low → Prop}
  {implement : (request : Request) → Keep → Prog Reply' (Option (Reply request × Keep))}
  {related : Option Keep → Low → State → Prop} {state : State} {low : Low} {keep : Keep} {program : Prog Reply α}

/-- Every request is served by its implementation, which keeps something from one to
the next. -/
def lower (implement : (request : Request) → Keep → Prog Reply' (Option (Reply request × Keep))) :
    Prog Reply α → Keep → Prog Reply' (Option (α × Keep))
  | .done value, keep => .done (some (value, keep))
  | .ask request next, keep => (implement request keep).bind (chain fun result => lower implement (next result.1) result.2)

/-- The lower program does to related states what the program does. -/
def Realizes (backend : Backend Reply State) (step : Low → Event Reply' → Low → Prop) (related : Option Keep → Low → State → Prop)
    (program : Prog Reply α) (state : State) (lowered : Prog Reply' (Option (α × Keep))) (low : Low) : Prop :=
  Meets step (fun last => ∃ after, Exec backend program state none after ∧ related none last after)
    (fun result last => ∃ after, Exec backend program state (some result.1) after ∧ related (some result.2) last after) lowered low

theorem exec_ask {request : Request} {next : Reply request → Prog Reply α} {reply : Reply request} {middle after : State}
    {outcome : Option α} (asked : Exec backend (.ask request .done) state (some reply) middle)
    (rest : Exec backend (next reply) middle outcome after) : Exec backend (.ask request next) state outcome after := by
  cases asked with
  | serve ended =>
      obtain ⟨rfl, result⟩ := exec_done backend ended
      cases result _ rfl
      exact .serve rest
  | fail fault ended =>
      obtain ⟨rfl, result⟩ := exec_done backend ended
      cases result _ rfl
      exact .fail fault rest

theorem exec_cut {request : Request} {next : Reply request → Prog Reply α} {after : State}
    (asked : Exec backend (.ask request .done) state none after) : Exec backend (.ask request next) state none after := by
  cases asked with
  | stop => exact .stop _ _
  | serve ended =>
      obtain ⟨rfl, _⟩ := exec_done backend ended
      exact .serve (.stop _ _)
  | fail fault ended =>
      obtain ⟨rfl, _⟩ := exec_done backend ended
      exact .fail fault (.stop _ _)

/-- If every implementation realizes its request, the lowered program realizes the
program. -/
theorem lower_realizes (cut : ∀ keep low state, related (some keep) low state → related none low state)
    (realizes : ∀ request keep low state, related (some keep) low state →
      Realizes backend step related (.ask request .done) state (implement request keep) low)
    (start : related (some keep) low state) : Realizes backend step related program state (lower implement program keep) low := by
  induction program generalizing keep low state with
  | done value => exact meets_done ⟨state, .stop _ _, cut _ _ _ start⟩ ⟨state, .done _ _, start⟩
  | ask request next ih =>
      refine meets_bind (meets_mono (realizes request keep low state start) ?_ fun _ _ here => here) ?_
      · rintro last ⟨after, execution, left⟩
        exact ⟨after, exec_cut execution, left⟩
      · rintro ⟨reply, kept⟩ middle ⟨after, execution, left⟩
        refine meets_mono (ih reply left) ?_ ?_
        · rintro last ⟨after', rest, left'⟩
          exact ⟨after', exec_ask execution rest, left'⟩
        · rintro ⟨value, kept'⟩ last ⟨after', rest, left'⟩
          exact ⟨after', exec_ask execution rest, left'⟩

variable {discipline : Discipline Reply Phase} {holds : Phase → α → Prop} {phase : Phase} {tracks : Phase → Keep → Prop}

/-- What is kept follows the phase of a discipline. -/
theorem lower_follows (follows : program.Follows discipline holds phase)
    (moves : ∀ phase request keep low, tracks phase keep → discipline.permits phase request →
      Meets step (fun _ => True) (fun result _ => tracks (discipline.next phase request result.1) result.2) (implement request keep) low)
    (start : tracks phase keep) :
    Meets step (fun _ => True) (fun result _ => ∃ phase, holds phase result.1 ∧ tracks phase result.2) (lower implement program keep) low := by
  induction program generalizing phase keep low with
  | done value => exact meets_done trivial ⟨phase, follows, start⟩
  | ask request next ih =>
      refine meets_bind (moves phase request keep low start follows.1) ?_
      rintro ⟨reply, kept⟩ middle here
      exact ih reply (follows.2 reply) here

end Lowering

end Lowering
