/-
# CountingSheep.Http.Connection — requests whose body arrives bit by bit, under the timeout

The router answers by method and path before it looks at the body; only
`create_sheep` has its body read first, by an extractor that waits for the client.
Everything else of a request runs without waiting. `BodyReader` is that waiting, a
parameter: whatever it waits for, it ends with what the connection delivered, which the
extractor then buffers or rejects.

The timeout layer stops a request that waits for too long, and a client may hang up.
Neither reaches a request that does not wait.

* `serve_eq_task`: a connection waits for its body, then acts on it.
* `interruptions_all_or_nothing`: every run of connections is, without the waits, a
  run of requests with their bodies at hand, in which the interrupted ones have not
  begun.
* `interrupted_ingestion`: what is in the queue of a request that was interrupted, and
  of one that was answered.
-/
import CountingSheep.Http.Logged
import CountingSheep.Ingest.Acknowledge
import CountingSheep.Theory.Interruption

namespace CountingSheep.Http.Connection

open Rust Ingest Observability Http.Logged
open Theory (Prog Event World System History Run Waiting Noted)
open Theory.Waiting (acting awaiting interruptible task reads stops OrStopped)

set_option autoImplicit false

/-- A request before its body. -/
structure Head where
  method : Method
  path : String
  headers : HeaderMap

def Head.request (head : Head) (body : Incoming) : Request :=
  ⟨head.method, head.path, head.headers, body⟩

/-- The wait of a request for its body: it ends with the body, as far as it was read. -/
abbrev BodyReader (A : Type) (RA : A → Type) := Prog A RA Incoming

/-- Why a request that waits is not waited for any longer. -/
inductive Interruption where
  | timeout
  /-- The client is gone. -/
  | disconnect
  deriving DecidableEq

section

variable (crates : Crates) {A : Type} {RA : A → Type}

/-! ## The code -/

abbrev Connected (A : Type) (RA : A → Type) :=
  Prog (Waiting A LoggedEffect) (Waiting.Answer RA LoggedEffect.Answer)

/-- The effects of a connection under interruptions. -/
abbrev Interrupted (A : Type) (RA : A → Type) :=
  Prog (Waiting A LoggedEffect) (Waiting.Answer (OrStopped Interruption RA) LoggedEffect.Answer)

abbrev ConnectionHistory (ι A : Type) (RA : A → Type) :=
  History ι (Waiting A LoggedEffect) (Waiting.Answer (OrStopped Interruption RA) LoggedEffect.Answer)

abbrev Connections (ι σ A : Type) (RA : A → Type) :=
  System ι σ (Waiting A LoggedEffect) (Waiting.Answer (OrStopped Interruption RA) LoggedEffect.Answer)
    (Option Response)

/-- `create_sheep` behind its extractors. -/
def sheepsRoute (state : AppState) (head : Head) (read : BodyReader A RA) : Connected A RA (Exec Response) :=
  (awaiting read).bind fun body => acting (Logged.sheepsRoute crates state (head.request body))

def buildAxumRouter (state : AppState) (head : Head) (read : BodyReader A RA) :
    Connected A RA (Exec Response) :=
  if head.path = "/health" then
    match head.method with
    | .get => .pure (.ok health)
    | .head => .pure (.ok { health with body := .empty })
    | _ => acting (Logged.respond (.error (.error .methodNotAllowed)))
  else if head.path = "/api/v1/sheeps" then
    match head.method with
    | .post => sheepsRoute crates state head read
    | _ => acting (Logged.respond (.error (.error .methodNotAllowed)))
  else acting (Logged.respond (.error (.error .notFound)))

/-- The answer of the timeout layer. -/
def requestTimeout : Response := ⟨408, [], .empty⟩

/-- `TimeoutLayer`. A request that nobody waits for any longer is dropped without an answer. -/
def timeoutLayer (router : Connected A RA (Exec Response)) :
    Interrupted A RA (Option (Exec Response)) :=
  (interruptible Interruption router).bind fun
    | .error .timeout => .pure (some (.ok requestTimeout))
    | .error .disconnect => .pure none
    | .ok out => .pure (some out)

/-- `CatchPanicLayer`, around the timeout. -/
def applyAxumMiddleware (router : Connected A RA (Exec Response)) : Interrupted A RA (Option Response) :=
  (timeoutLayer router).bind fun
    | none => .pure none
    | some (.ok response) => .pure (some response)
    | some (.error panic) => acting ((Logged.handlePanic panic).bind fun response => .pure (some response))

/-- The application's handler for one connection: its response, if there is one. -/
def serve (state : AppState) (head : Head) (read : BodyReader A RA) : Interrupted A RA (Option Response) :=
  applyAxumMiddleware (buildAxumRouter crates state head read)

/-! ## Waiting first -/

/-- What a connection waits for. -/
def waits (head : Head) (read : BodyReader A RA) : BodyReader A RA :=
  if head.method = .post ∧ head.path = "/api/v1/sheeps" then read else .pure (.whole [])

/-- What it does with it. -/
def received (state : AppState) (head : Head) (body : Incoming) : Written (Option Response) :=
  (Logged.serve crates state (head.request body)).bind fun response => .pure (some response)

/-- What is answered to an interrupted request. -/
def Interruption.answer : Interruption → Option Response
  | .timeout => some requestTimeout
  | .disconnect => none

/-- A router that waits for nothing is not interrupted. -/
theorem middleware_acting (p : Written (Exec Response)) :
    applyAxumMiddleware (acting p : Connected A RA (Exec Response)) =
      acting ((Logged.applyAxumMiddleware p).bind fun response => .pure (some response)) := by
  unfold applyAxumMiddleware timeoutLayer Logged.applyAxumMiddleware
  rw [Waiting.interruptible_acting, Waiting.acting_bind, Prog.bind_assoc, Prog.bind_assoc, Prog.bind_assoc,
    Waiting.acting_bind]
  congr 1
  funext out
  cases out <;> rfl

/-- An interruption in the first part of a router keeps the rest from happening. -/
theorem middleware_bind {α : Type} (p : Connected A RA α) (f : α → Connected A RA (Exec Response)) :
    applyAxumMiddleware (p.bind f) = (interruptible Interruption p).bind fun
      | .ok a => applyAxumMiddleware (f a)
      | .error why => .pure why.answer := by
  unfold applyAxumMiddleware timeoutLayer
  rw [Waiting.interruptible_bind, Prog.bind_assoc, Prog.bind_assoc]
  congr 1
  funext out
  cases out with
  | error why => cases why <;> rfl
  | ok a => exact (Prog.bind_assoc _ _ _).symm

/-- **A connection waits for its body, then acts on it.** -/
theorem serve_eq_task (state : AppState) (head : Head) (read : BodyReader A RA) :
    serve crates state head read =
      task (waits head read) (received crates state head) Interruption.answer := by
  obtain ⟨method, path, headers⟩ := head
  by_cases submits : method = .post ∧ path = "/api/v1/sheeps"
  · obtain ⟨rfl, rfl⟩ := submits
    have routed : buildAxumRouter crates state ⟨.post, "/api/v1/sheeps", headers⟩ read =
        sheepsRoute crates state ⟨.post, "/api/v1/sheeps", headers⟩ read := rfl
    rw [serve, routed, sheepsRoute, middleware_bind, task, waits, if_pos ⟨rfl, rfl⟩]
    congr 1
    funext out
    rcases out with why | body
    · rfl
    · exact middleware_acting _
  · rw [waits, if_neg submits, Waiting.task_pure]
    have routed : buildAxumRouter crates state ⟨method, path, headers⟩ read =
        acting (Logged.buildAxumRouter crates state ⟨method, path, headers, .whole []⟩) := by
      unfold buildAxumRouter Logged.buildAxumRouter
      by_cases healthy : path = "/health"
      · simp only [healthy, if_true]
        cases method <;> rfl
      · by_cases sheeps : path = "/api/v1/sheeps"
        · simp only [sheeps, if_true]
          cases method with
          | post => exact absurd ⟨rfl, sheeps⟩ submits
          | get | head | other => rfl
        · simp only [healthy, sheeps, if_false]
    rw [serve, routed]
    exact middleware_acting _

end

/-! ## Beside other connections -/

section Run

variable {ι σ : Type} [DecidableEq ι] {A : Type} {RA : A → Type}

/-- Connections before their first step. -/
def connections (crates : Crates) (state : AppState) (start : σ) (heads : ι → Head)
    (readers : ι → BodyReader A RA) : Connections ι σ A RA :=
  ⟨start, fun r => serve crates state (heads r) (readers r)⟩

/-- The same requests with all they waited for at hand. -/
def submissions (crates : Crates) (state : AppState) (start : σ) (heads : ι → Head)
    (given : ι → Incoming) : System ι σ LoggedEffect LoggedEffect.Answer (Option Response) :=
  ⟨start, fun r => received crates state (heads r) (given r)⟩

variable {crates : Crates} {state : AppState} {start : σ} {heads : ι → Head}
  {readers : ι → BodyReader A RA} {W : World ι σ LoggedEffect LoggedEffect.Answer}
  {history : ConnectionHistory ι A RA} {c : Connections ι σ A RA}

theorem connections_uninterrupted
    (run : Run (W.waiting Interruption RA) (connections crates state start heads readers) history c) :
    ∃ (given : ι → Incoming)
      (d : System ι σ LoggedEffect LoggedEffect.Answer (Option Response)),
      Run W (submissions crates state start heads given) (History.actions history) d ∧
        d.shared = c.shared ∧ ∀ r, Waiting.Phase (waits (heads r) (readers r)) (received crates state (heads r))
          Interruption.answer (given r) (History.of r history) (c.threads r) (d.threads r) := by
  have : Nonempty Incoming := ⟨.whole []⟩
  have same : connections crates state start heads readers =
      ⟨start, fun r => task (waits (heads r) (readers r)) (received crates state (heads r))
        Interruption.answer⟩ := by
    unfold connections
    simp only [serve_eq_task]
  rw [same] at run
  exact Theory.run_uninterrupted run

/-- **An interruption is all or nothing.** Whatever answers the requests, and whichever of them
time out or lose their client at whatever moment, what they all do is what requests do that have
their bodies at hand and are never interrupted. A request that was interrupted, or still waits,
has not begun there, and has done nothing. Any other goes on as its counterpart does, on the body
that it has read, and ends as that one ends. -/
theorem interruptions_all_or_nothing (crates : Crates) (state : AppState)
    (W : World ι σ Effect Effect.Answer) (start : σ) (heads : ι → Head) (readers : ι → BodyReader A RA)
    (run : Run ((W.noted Line).waiting Interruption RA)
      (connections crates state start heads readers) history c) :
    ∃ (given : ι → Incoming)
      (d : System ι σ LoggedEffect LoggedEffect.Answer (Option Response)),
      Run (W.noted Line) (submissions crates state start heads given) (History.actions history) d ∧
      d.shared = c.shared ∧
      ∀ r, let trace := History.of r history
        (stops trace = [] ∧ (∃ a k, c.threads r = .op (.await a) k) ∧ Waiting.acts trace = [] ∧
          d.threads r = received crates state (heads r) (given r)) ∨
        (∃ why, stops trace = [why] ∧ c.threads r = .pure why.answer ∧ Waiting.acts trace = [] ∧
          d.threads r = received crates state (heads r) (given r)) ∨
        stops trace = [] ∧ Prog.Returns (waits (heads r) (readers r)) (reads trace) (given r) ∧
          c.threads r = acting (d.threads r) := by
  obtain ⟨given, d, plain, same, phase⟩ := connections_uninterrupted run
  exact ⟨given, d, plain, same, fun r => (phase r).standing⟩

end Run

/-! ## Ingestion under interruptions -/

section Ingestion

variable {ι σ : Type} [DecidableEq ι] {A : Type} {RA : A → Type} {crates : Crates} {state : AppState}

/-- `POST /api/v1/sheeps`. -/
def sheepsHead (headers : HeaderMap) : Head := ⟨.post, "/api/v1/sheeps", headers⟩

/-- A rejected body is answered at once. -/
theorem received_rejected {headers : HeaderMap} {incoming : Incoming} {rejection : Rejection}
    (unbuffered : bufferBody incoming = .error rejection) :
    received crates state (sheepsHead headers) incoming = .pure (some (rejection.response crates)) := by
  have routed : Logged.buildAxumRouter crates state ((sheepsHead headers).request incoming) =
      .pure (.ok (rejection.response crates)) := by
    change Logged.sheepsRoute crates state ((sheepsHead headers).request incoming) = _
    simp only [Logged.sheepsRoute, Head.request, unbuffered]
  rw [received, Logged.serve, routed]
  rfl

/-- What a request does on a body that it has read is part of how that request is served. -/
theorem received_serves {headers : HeaderMap} {body : Incoming}
    {trace : List (Event LoggedEffect LoggedEffect.Answer)} {rest : Written (Option Response)}
    (steps : Prog.Steps (received crates state (sheepsHead headers) body) trace rest) :
    ∃ later response, Serves crates state headers body (Noted.acts trace ++ later) response ∧
      ∀ answer, rest = .pure answer → later = [] ∧ answer = some response := by
  have plain := Theory.Noted.steps_erase steps
  have erased : Theory.Noted.erase (received crates state (sheepsHead headers) body) =
      (Http.serve crates state (sheepsRequest headers body)).bind fun response => .pure (some response) := by
    rw [received, Theory.Noted.erase_bind, erase_serve]
    simp only [Theory.Noted.erase_pure]
    rfl
  rw [erased] at plain
  by_cases ended : ∃ answer, rest = .pure answer
  · obtain ⟨answer, rfl⟩ := ended
    rw [Theory.Noted.erase_pure] at plain
    obtain ⟨first, later, response, same, served, rfl, rfl⟩ := by
      simpa only [Prog.bind_returns_iff, Prog.pure_returns_iff] using plain
    refine ⟨[], response, ?_, ?_⟩
    · rw [List.append_nil] at same ⊢
      rw [same]
      exact serve_returns_iff.mp served
    · rintro _ ⟨⟩
      exact ⟨rfl, rfl⟩
  · obtain ⟨later, answer, whole⟩ := plain.extends
    obtain ⟨first, after, response, same, served, rfl, rfl⟩ := by
      simpa only [Prog.bind_returns_iff, Prog.pure_returns_iff] using whole
    rw [List.append_nil] at same
    rw [← same] at served
    exact ⟨later, response, serve_returns_iff.mp served, fun answer same => absurd ⟨answer, same⟩ ended⟩

variable {queue : Queue σ} {start : σ} {headers : ι → HeaderMap} {readers : ι → BodyReader A RA}
  {history : ConnectionHistory ι A RA} {c : Connections ι (Shared ι σ) A RA}

/-- The effects of a request in a history of connections. -/
def effectsOf (r : ι) (history : ConnectionHistory ι A RA) : List (Event Effect Effect.Answer) :=
  Noted.acts (Waiting.acts (History.of r history))

/-- Ingestion requests whose bodies have yet to arrive. -/
abbrev ingestions (crates : Crates) (state : AppState) (start : σ) (headers : ι → HeaderMap)
    (readers : ι → BodyReader A RA) :=
  connections crates state (⟨start, []⟩ : Shared ι σ) (fun r => sheepsHead (headers r)) readers

theorem logOf_connections
    (run : Run (((queue.world ι).noted Line).waiting Interruption RA)
      (ingestions crates state start headers readers) history c) (r : ι) :
    logOf r c.shared.log = enqueued (effectsOf r history) := by
  obtain ⟨given, d, plain, same, -⟩ := connections_uninterrupted run
  have log := logOf_run (Theory.run_erase plain) rfl r
  rw [History.of_acts, Theory.of_actions] at log
  rw [← same]
  exact log

/-- **Ingestion under interruptions.** At every moment of every run, on any queue: a request that
was interrupted has done nothing and has nothing in the queue. Whatever a request does have there
is a prefix of the messages of the body that it has read. And a connection without an answer was
given up by its client; one that is answered has timed out and has nothing in the queue, or had its
body rejected and has nothing in the queue, or is answered as its body and the queue say. -/
theorem interrupted_ingestion (crates : Crates) (state : AppState) (queue : Queue σ) (start : σ)
    (headers : ι → HeaderMap) (readers : ι → BodyReader A RA)
    (run : Run (((queue.world ι).noted Line).waiting Interruption RA)
      (ingestions crates state start headers readers) history c) (r : ι) :
    let trace := History.of r history
    let queued := logOf r c.shared.log
    (stops trace ≠ [] → Waiting.acts trace = [] ∧ queued = []) ∧
    (queued ≠ [] → stops trace = [] ∧ ∃ body, Prog.Returns (readers r) (reads trace) (.whole body) ∧
      PublishesPrefix crates (requestEvents crates (headers r) body) (effectsOf r history) queued) ∧
    (c.threads r = .pure none → stops trace = [.disconnect]) ∧
    ∀ response, c.threads r = .pure (some response) →
      (stops trace = [.timeout] ∧ response = requestTimeout ∧ queued = []) ∨
      (∃ incoming rejection, Prog.Returns (readers r) (reads trace) incoming ∧
        bufferBody incoming = .error rejection ∧ response = rejection.response crates ∧ queued = []) ∨
      ∃ body, Prog.Returns (readers r) (reads trace) (.whole body) ∧ body.length ≤ defaultBodyLimit ∧
        Acknowledged crates (requestEvents crates (headers r) body) (effectsOf r history) queued
          response := by
  intro trace queued
  have log : queued = enqueued (effectsOf r history) := logOf_connections run r
  obtain ⟨given, d, -, -, phase⟩ := connections_uninterrupted run
  have nothing (idle : Waiting.acts trace = []) : queued = [] := by
    rw [log, effectsOf, idle]
    rfl
  have steps := (phase r).steps
  rcases (phase r).standing with ⟨going, ⟨a, k, waiting⟩, idle, -⟩ | ⟨why, stopped, ended, idle, -⟩ |
    ⟨going, read, onward⟩
  · refine ⟨fun _ => ⟨idle, nothing idle⟩, fun some => absurd (nothing idle) some, ?_, ?_⟩
    · intro ended
      rw [waiting] at ended
      cases ended
    · intro response ended
      rw [waiting] at ended
      cases ended
  · refine ⟨fun _ => ⟨idle, nothing idle⟩, fun some => absurd (nothing idle) some, ?_, ?_⟩
    · intro unanswered
      rw [ended] at unanswered
      cases why with
      | timeout => cases unanswered
      | disconnect => exact stopped
    · intro response answered
      rw [ended] at answered
      cases why with
      | timeout =>
          cases answered
          exact .inl ⟨stopped, rfl, nothing idle⟩
      | disconnect => cases answered
  · have body : waits (sheepsHead (headers r)) (readers r) = readers r := if_pos ⟨rfl, rfl⟩
    rw [body] at read
    have atEnd {answer : Option Response} (ended : c.threads r = .pure answer) :
        d.threads r = .pure answer := Waiting.acting_eq_pure (onward ▸ ended)
    generalize given r = incoming at read steps
    cases buffered : bufferBody incoming with
    | error rejection =>
      rw [received_rejected buffered] at steps
      obtain ⟨idle, rejected⟩ := Prog.pure_steps_iff.mp steps
      refine ⟨fun stopped => absurd going stopped, fun some => absurd (nothing idle) some, ?_, ?_⟩
      · intro ended
        cases rejected.symm.trans (atEnd ended)
      · intro response ended
        cases rejected.symm.trans (atEnd ended)
        exact .inr (.inl ⟨incoming, rejection, read, buffered, rfl, nothing idle⟩)
    | ok body =>
      obtain ⟨rfl, within⟩ := bufferBody_eq_ok_iff.mp buffered
      obtain ⟨later, response, served, concluded⟩ := received_serves steps
      refine ⟨fun stopped => absurd going stopped, fun _ => ⟨going, body, read, ?_⟩, ?_, ?_⟩
      · rw [log]
        exact (served_publishes served).of_append (served_clock served)
      · intro ended
        cases (concluded _ (atEnd ended)).2
      · intro answer ended
        obtain ⟨rfl, same⟩ := concluded _ (atEnd ended)
        cases same
        rw [List.append_nil] at served
        rw [log]
        exact .inr (.inr ⟨body, read, within, served_acknowledged served⟩)

end Ingestion

/-! ## A timeout beside a request that is served -/

/-- An extractor that waits for the whole body at once. -/
def wholeBody : BodyReader Unit fun _ => Bytes := .op () fun body => .pure (.whole body)

section Sample

variable {crates : Crates} {state : AppState} {headers : HeaderMap} {body : Bytes} {sheep : Sheep}

/-- A request on its body, read at once. -/
theorem serves_wholeBody {trace : List (Event Effect Effect.Answer)} {response : Response}
    (served : Serves crates state headers (.whole body) trace response) :
    ∃ events : List (Event LoggedEffect LoggedEffect.Answer), Noted.acts events = trace ∧
      Prog.Returns (serve crates state (sheepsHead headers) wholeBody)
        (⟨.await (), .ok body⟩ :: events.map (Waiting.acted Interruption fun _ => Bytes)) (some response) := by
  have plain := serve_returns_iff.mpr served
  rw [← erase_serve] at plain
  obtain ⟨events, same, returned⟩ := Theory.Noted.erase_returns_iff.mp plain
  have own : Prog.Returns (received crates state (sheepsHead headers) (.whole body)) events (some response) :=
    Prog.bind_returns_iff.mpr ⟨events, [], response, (List.append_nil _).symm, returned,
      Prog.pure_returns_iff.mpr ⟨rfl, rfl⟩⟩
  have waits : waits (sheepsHead headers) wholeBody = wholeBody := if_pos ⟨rfl, rfl⟩
  refine ⟨events, same, ?_⟩
  rw [serve_eq_task, waits, wholeBody, Waiting.task_op]
  refine Prog.op_returns_iff.mpr ⟨.ok body, _, rfl, ?_⟩
  dsimp only
  rw [Waiting.task_pure]
  exact Waiting.steps_acting own

theorem times_out : Prog.Returns (serve crates state (sheepsHead headers) wholeBody)
    [⟨.await (), .error .timeout⟩] (some requestTimeout) := by
  have waits : waits (sheepsHead headers) wholeBody = wholeBody := if_pos ⟨rfl, rfl⟩
  rw [serve_eq_task, waits, wholeBody, Waiting.task_op]
  exact Prog.op_returns_iff.mpr ⟨.error .timeout, [], rfl, Prog.pure_returns_iff.mpr ⟨rfl, rfl⟩⟩

/-- Of two clients that send the same request, one is too slow. -/
theorem one_timeout_run (within : body.length ≤ defaultBodyLimit)
    (planned : plan crates state headers body = .ok [sheep]) :
    ∃ (history : ConnectionHistory Bool Unit fun _ => Bytes)
      (c : Connections Bool (Shared Bool Nat) Unit fun _ => Bytes),
      Run ((((boundedQueue 1).world Bool).noted Line).waiting Interruption fun _ => Bytes)
          (ingestions crates state 0 (fun _ => headers) fun _ => wholeBody) history c ∧
        stops (History.of false history) ≠ [] ∧ c.threads false = .pure (some requestTimeout) ∧
        c.threads true = .pure (some ⟨202, [], .empty⟩) := by
  have served : Serves crates state headers (.whole body) _ _ :=
    .answered (.published (bufferBody_whole within) planned .epoch)
  obtain ⟨events, same, returned⟩ := serves_wholeBody served
  have accepted : ((boundedQueue 1).world Bool).Answers true ⟨0, []⟩ (Noted.acts events)
      ⟨1, [(true, messageAt crates .epoch sheep)]⟩ := by
    rw [same]
    exact .cons rfl (.cons ⟨⟨Nat.zero_lt_one, rfl⟩, rfl⟩ (.nil _))
  have late : Run ((((boundedQueue 1).world Bool).noted Line).waiting Interruption fun _ => Bytes)
      (ingestions crates state 0 (fun _ => headers) fun _ => wholeBody) [(false, ⟨.await (), .error .timeout⟩)]
      ⟨⟨0, []⟩, Function.update (fun _ => serve crates state (sheepsHead headers) wholeBody) false
        (.pure (some requestTimeout))⟩ :=
    Run.alone times_out (.cons rfl (.nil _))
  have served := late.trans (Run.alone (i := true) returned
    (.cons rfl (Theory.answers_waiting (Theory.answers_noted accepted))))
  refine ⟨_, _, served, ?_, ?_, ?_⟩
  · rw [History.of_append, History.of_single_self, Waiting.stops_append]
    exact List.cons_ne_nil _ _
  · rfl
  · rfl

end Sample

/-- The request that was served is served the same where the other never begins. -/
theorem interruptions_all_or_nothing_one_timeout :
    ∃ (history : ConnectionHistory Bool Unit fun _ => Bytes)
      (c : Connections Bool (Shared Bool Nat) Unit fun _ => Bytes)
      (given : Bool → Incoming)
      (d : System Bool (Shared Bool Nat) LoggedEffect LoggedEffect.Answer (Option Response)),
      c.threads false = .pure (some requestTimeout) ∧
        Run (((boundedQueue 1).world Bool).noted Line)
          (submissions reference ⟨100⟩ ⟨0, []⟩ (fun _ => sheepsHead (singleRequest sampleEvent).1) given)
          (History.actions history) d ∧ d.shared = c.shared ∧
        d.threads true = .pure (some ⟨202, [], .empty⟩) := by
  have within : (singleRequest sampleEvent).2.length ≤ defaultBodyLimit := by decide
  obtain ⟨history, c, run, -, late, served⟩ := one_timeout_run within (plan_sample ⟨100⟩)
  obtain ⟨given, d, plain, same, standing⟩ :=
    interruptions_all_or_nothing reference ⟨100⟩ ((boundedQueue 1).world Bool) _ _ _ run
  refine ⟨history, c, given, d, late, plain, same, ?_⟩
  rcases standing true with ⟨-, ⟨a, k, waiting⟩, -⟩ | ⟨why, -, stopped, -⟩ | ⟨-, -, onward⟩
  · rw [served] at waiting
    cases waiting
  · rw [served] at stopped
    cases why with
    | timeout =>
        have same := Option.some.inj (Prog.pure.inj stopped)
        exact absurd (congrArg Response.status same) (by decide)
    | disconnect => cases stopped
  · exact Waiting.acting_eq_pure (onward.symm.trans served)

/-- The queue has nothing of the request that timed out, and the one event of the other. -/
theorem interrupted_ingestion_one_timeout :
    ∃ c : Connections Bool (Shared Bool Nat) Unit fun _ => Bytes,
      c.threads false = .pure (some requestTimeout) ∧ logOf false c.shared.log = [] ∧
        c.threads true = .pure (some ⟨202, [], .empty⟩) ∧ logOf true c.shared.log ≠ [] := by
  have within : (singleRequest sampleEvent).2.length ≤ defaultBodyLimit := by decide
  obtain ⟨history, c, run, stopped, late, served⟩ := one_timeout_run within (plan_sample ⟨100⟩)
  have each := interrupted_ingestion reference ⟨100⟩ (boundedQueue 1) 0 _ _ run
  refine ⟨c, late, ((each false).1 stopped).2, served, ?_⟩
  rcases (each true).2.2.2 _ served with ⟨-, timeout, -⟩ | ⟨incoming, rejection, -, -, rejected, -⟩ |
    ⟨body, -, -, acknowledged⟩
  · exact absurd (congrArg Response.status timeout) (by decide)
  · exact absurd (congrArg Response.status rejected).symm (rejection.status reference).1
  · obtain ⟨nonempty, whole, -⟩ := acknowledged.accepted_iff.mp rfl
    intro none
    rw [none] at whole
    exact nonempty (List.length_eq_zero_iff.mp whole.symm)

end CountingSheep.Http.Connection
