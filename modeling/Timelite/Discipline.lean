import Timelite.Program

/-!
Disciplines of requests. A phase says which requests are permitted, and each
reply moves the phase. A program follows a discipline if every request that it
can make, whatever the replies before, is permitted in its phase.
-/
namespace Program
variable {Request : Type} {Reply : Request → Type} {Phase : Type} {α β : Type}

structure Discipline (Reply : Request → Type) (Phase : Type) where
  permits : Phase → Request → Prop
  next : Phase → (request : Request) → Reply request → Phase

/-- The program keeps to the discipline from this phase on, and returns only
where `holds`. -/
def Prog.Follows (discipline : Discipline Reply Phase) (holds : Phase → α → Prop) : Phase → Prog Reply α → Prop
  | phase, .done value => holds phase value
  | phase, .ask request next =>
      discipline.permits phase request ∧ ∀ reply, (next reply).Follows discipline holds (discipline.next phase request reply)

variable {discipline : Discipline Reply Phase} {holds : Phase → α → Prop} {holds' : Phase → β → Prop} {phase : Phase}

theorem follows_bind {program : Prog Reply α} {next : α → Prog Reply β} (first : program.Follows discipline holds phase)
    (rest : ∀ phase value, holds phase value → (next value).Follows discipline holds' phase) :
    (program.bind next).Follows discipline holds' phase := by
  induction program generalizing phase with
  | done value => exact rest phase value first
  | ask request tail ih => exact ⟨first.1, fun reply => ih reply (first.2 reply)⟩

theorem follows_mono {weaker : Phase → α → Prop} {program : Prog Reply α}
    (follows : program.Follows discipline holds phase) (implied : ∀ phase value, holds phase value → weaker phase value) :
    program.Follows discipline weaker phase := by
  induction program generalizing phase with
  | done value => exact implied phase value follows
  | ask request next ih => exact ⟨follows.1, fun reply => ih reply (follows.2 reply)⟩

/-- Two disciplines whose phases move together: what the one permits the other permits. -/
theorem follows_simulate {Other : Type} {other : Discipline Reply Other} {phase' : Other} {holds : Phase → α → Prop}
    (related : Phase → Other → Prop) {program : Prog Reply α} (follows : program.Follows discipline holds phase)
    (start : related phase phase')
    (step : ∀ phase phase' request, related phase phase' → discipline.permits phase request →
      other.permits phase' request ∧ ∀ reply, related (discipline.next phase request reply) (other.next phase' request reply)) :
    program.Follows other (fun phase' value => ∃ phase, related phase phase' ∧ holds phase value) phase' := by
  induction program generalizing phase phase' with
  | done value => exact ⟨phase, start, follows⟩
  | ask request next ih =>
      obtain ⟨allowed, moves⟩ := step _ _ request start follows.1
      exact ⟨allowed, fun reply => ih reply (follows.2 reply) (moves reply)⟩

/-- A discipline of one phase, for programs that stay where they are. -/
def Discipline.still (permits : Request → Prop) : Discipline Reply Unit := ⟨fun _ => permits, fun _ _ _ => ()⟩

-- Requests that do not move a phase that permits them.
theorem follows_still {permits : Request → Prop} {holds : α → Prop} {program : Prog Reply α}
    (follows : program.Follows (Discipline.still permits) (fun _ => holds) ())
    (stays : ∀ request, permits request →
      discipline.permits phase request ∧ ∀ reply, discipline.next phase request reply = phase) :
    program.Follows discipline (fun phase' value => phase' = phase ∧ holds value) phase := by
  refine follows_mono (follows_simulate (fun _ phase' => phase' = phase) follows rfl ?_) fun _ _ here => ?_
  · rintro ⟨⟩ phase' request rfl allowed
    exact stays request allowed
  · obtain ⟨_, same, kept⟩ := here
    exact ⟨same, kept⟩

section Recording

/-- A request with its reply. -/
abbrev Event (Reply : Request → Type) : Type := (request : Request) × Reply request

/-- What a program asks and is answered until it returns. -/
inductive Prog.Traces : Prog Reply α → List (Event Reply) → α → Prop where
  | done (value : α) : Prog.Traces (.done value) [] value
  | ask {request : Request} {next : Reply request → Prog Reply α} {reply : Reply request} {events : List (Event Reply)}
      {value : α} (rest : Prog.Traces (next reply) events value) :
      Prog.Traces (.ask request next) (⟨request, reply⟩ :: events) value

theorem traces_bind {program : Prog Reply α} {next : α → Prog Reply β} {events : List (Event Reply)} {result : β} :
    (program.bind next).Traces events result ↔
      ∃ value front back, events = front ++ back ∧ program.Traces front value ∧ (next value).Traces back result := by
  induction program generalizing events with
  | done value =>
      refine ⟨fun traces => ⟨value, [], events, rfl, .done value, traces⟩, ?_⟩
      rintro ⟨_, _, back, rfl, ⟨⟩, traces⟩
      exact traces
  | ask request tail ih =>
      constructor
      · intro traces
        cases traces with
        | ask rest =>
            obtain ⟨value, front, back, rfl, first, second⟩ := (ih _).mp rest
            exact ⟨value, _ :: front, back, rfl, .ask first, second⟩
      · rintro ⟨value, _, back, rfl, first, second⟩
        cases first with
        | ask rest => exact .ask ((ih _).mpr ⟨value, _, back, rfl, rest, second⟩)

/-- The phase is all that was asked and answered before. -/
def Discipline.recording : Discipline Reply (List (Event Reply)) :=
  ⟨fun _ _ => True, fun past request reply => past ++ [⟨request, reply⟩]⟩

theorem follows_traces {holds : List (Event Reply) → α → Prop} {program : Prog Reply α} {past events : List (Event Reply)}
    {value : α} (follows : program.Follows Discipline.recording holds past) (traces : program.Traces events value) :
    holds (past ++ events) value := by
  induction traces generalizing past with
  | done value =>
      have here : holds past value := follows
      simpa using here
  | @ask request next reply events value rest ih =>
      have here : holds ((past ++ [⟨request, reply⟩]) ++ events) value := ih (follows.2 reply)
      simpa using here

/-- What the answered requests do to a state, one after the other. -/
inductive Happen {State : Type} (step : State → Event Reply → State → Prop) : State → List (Event Reply) → State → Prop where
  | nil (state : State) : Happen step state [] state
  | cons {state middle last : State} {event : Event Reply} {events : List (Event Reply)} (first : step state event middle)
      (rest : Happen step middle events last) : Happen step state (event :: events) last

end Recording

end Program
