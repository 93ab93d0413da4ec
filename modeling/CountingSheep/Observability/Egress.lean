/-
# CountingSheep.Observability.Egress — what reaches PostHog, over whole runs

Any number of requests and of `init` calls run at once, sharing the global sink
and the events PostHog has been handed. Each is a program (`Task.program`); `init`
awaits the client set-up and then tries to set the sink, which keeps its first
value (`tracking`).

* `serve_reports`: a request makes a report exactly when it is answered 500, and
  answers right after it.
* `Provenance`, `provenance_run`: which `init` call the sink came from, and that
  nothing is captured without PostHog's sink.
* `installed_run`: under PostHog's sink the events captured are those of the 500
  responses since it was set, in their order.
* `serve_any_sink`: the requests of a run can be replayed under any other sink.
-/
import CountingSheep.Config.PostHog
import CountingSheep.Http.Router
import CountingSheep.Ingest.Submission

namespace CountingSheep.Observability

open Rust Http Ingest Config
open Theory (Prog Event World System History Step Run Finishes endings)

set_option autoImplicit false

/-! ## `init`, and the tasks of the process -/

/-- The effects of the process: those of its requests, and those of `init`. -/
inductive TaskEffect where
  | serving (effect : Effect)
  /-- `posthog_rs::init_global`. -/
  | initGlobal (active : ActivePostHog)
  /-- `SINK.set`. -/
  | setSink (sink : ExceptionSink)

/-- A set-up may fail; setting the sink tells whether it was free. -/
@[reducible] def TaskEffect.Answer : TaskEffect → Type
  | .serving effect => effect.Answer
  | .initGlobal _ => Except String Unit
  | .setSink _ => Bool

instance : ∀ effect : TaskEffect, Nonempty effect.Answer
  | .serving effect => inferInstanceAs (Nonempty effect.Answer)
  | .initGlobal _ => ⟨.ok ()⟩
  | .setSink _ => ⟨true⟩

/-- The sink of an `init` call that asked for capture, by how its set-up went. -/
def sinkAfter : Except String Unit → ExceptionSink
  | .ok () => posthogSink
  | .error _ => noopSink

/-- Initialize error tracking from config: await the client if it is wanted, then
set the sink. -/
def init (config : PostHogConfig) : Prog TaskEffect TaskEffect.Answer Unit :=
  match config.active with
  | some active => .op (.initGlobal active) fun result =>
      .op (.setSink (sinkAfter result)) fun _ => .pure ()
  | none => .op (.setSink noopSink) fun _ => .pure ()

/-- What runs in the process, as far as error tracking goes. -/
inductive Task where
  | serving (request : Request)
  | initializing (config : PostHogConfig)

def Task.serves : Task → Bool
  | .serving _ => true
  | .initializing _ => false

/-- A task as a program; requests return their response. -/
def Task.program (crates : Crates) (state : AppState) :
    Task → Prog TaskEffect TaskEffect.Answer (Option Response)
  | .serving request =>
      ((serve crates state request).bind fun response => .pure (some response)).embed .serving
        fun _ => id
  | .initializing config => (init config).bind fun _ => .pure none

/-- The global sink, and what PostHog has been handed. -/
structure Tracking where
  sink : Option ExceptionSink
  captured : List PosthogEvent

/-- Reports go to the sink of the moment, and the sink keeps its first value. -/
def Tracking.after (s : Tracking) : TaskEffect → Tracking
  | .serving (.report report) => { s with captured := (reportException s.sink report s.captured).2 }
  | .setSink sink => { s with sink := s.sink.or (some sink) }
  | .serving .now | .serving (.produce _) | .initGlobal _ => s

/-- Setting the sink succeeds if it was free; a report has an answer only if it returns
to its caller; the clock, the producer and the client set-up may answer anything. -/
def Tracking.allows (s : Tracking) : (effect : TaskEffect) → effect.Answer → Prop
  | .setSink _, free => free = s.sink.isNone
  | .serving (.report report), _ => (reportException s.sink report s.captured).1 = .ok ()
  | .serving .now, _ | .serving (.produce _), _ | .initGlobal _, _ => True

def tracking (ι : Type) : World ι Tracking TaskEffect TaskEffect.Answer where
  answer _ s effect answer s' := s.allows effect answer ∧ s' = s.after effect
  drift _ _ := False

/-! ## What a request reports -/

def asReport : Event Effect Effect.Answer → Option ExceptionReport
  | ⟨.report report, _⟩ => some report
  | ⟨.now, _⟩ | ⟨.produce _, _⟩ => none

/-- The reports of a trace, in order. -/
def reportsOf (trace : List (Event Effect Effect.Answer)) : List ExceptionReport :=
  trace.filterMap asReport

/-- Why a request with this trace is answered 500, and the type, value and `handled` of
its report: a backend error, which is handled, or a caught panic, which is not. -/
inductive Fault (crates : Crates) (state : AppState) (request : Request)
    (trace : List (Event Effect Effect.Answer)) : String → String → Bool → Response → Prop where
  | internal {message : ProducedMessage} {detail : String}
      (failed : (⟨.produce message, .error (.backend detail)⟩ : Event _ _) ∈ trace)
      (rendered : Prog.Returns (buildAxumRouter crates state request) trace
        (.ok (AppError.internal ⟨"kafka backend error: " ++ detail, []⟩).rendered)) :
      Fault crates state request trace "AppError::Internal" ("kafka backend error: " ++ detail) true
        ⟨500, [("content-type", "application/json")], .json (.object [("errors", .array
          [.object [("detail", .string "internal server error")]])])⟩
  | caught {panic : Panic}
      (unwound : Prog.Returns (buildAxumRouter crates state request) [] (.error panic)) :
      Fault crates state request trace "panic" panic.message false
        ⟨500, [("content-type", "text/plain; charset=utf-8")], .text "Service panicked"⟩

section Reports

variable {crates : Crates} {state : AppState} {request : Request}
  {trace : List (Event Effect Effect.Answer)} {response : Response}

theorem reportsOf_published (now : OffsetDateTime) (sheeps : List Sheep) :
    reportsOf (⟨.now, now⟩ :: sheeps.map fun sheep => produced crates now sheep (.ok ())) = [] := by
  refine List.filterMap_eq_nil_iff.mpr ?_
  intro event member
  rcases List.mem_cons.mp member with rfl | member
  · rfl
  · obtain ⟨sheep, -, rfl⟩ := List.mem_map.mp member
    rfl

theorem Elsewhere.status_ne {response : Response} (elsewhere : Elsewhere request response) :
    response.status ≠ 500 := by
  cases elsewhere with
  | health | headHealth => exact show (200 : Nat) ≠ 500 by decide
  | methodNotAllowed => exact show (405 : Nat) ≠ 500 by decide
  | notFound => exact show (404 : Nat) ≠ 500 by decide

/-- **A report is made exactly for a 500, right before it is answered.** -/
theorem serve_reports (served : Prog.Returns (serve crates state request) trace response) :
    (response.status ≠ 500 ∧ reportsOf trace = []) ∨
      (response.status = 500 ∧ ∃ quiet report, trace = quiet ++ [⟨.report report, ()⟩] ∧
        reportsOf quiet = [] ∧
        Fault crates state request trace report.kind report.value report.handled response) := by
  obtain ⟨first, later, out, rfl, routed, caught⟩ := Prog.bind_returns_iff.mp served
  rcases router_returns routed with ⟨answer, rfl, rfl, elsewhere⟩ | ⟨submits, ending⟩
  · obtain ⟨rfl, rfl⟩ := Prog.pure_returns_iff.mp caught
    exact .inl ⟨Elsewhere.status_ne elsewhere, rfl⟩
  · cases ending with
    | @rejected rejection unbuffered =>
        obtain ⟨rfl, rfl⟩ := Prog.pure_returns_iff.mp caught
        have status := rejection.status crates
        exact .inl ⟨by omega, rfl⟩
    | refused buffered planned =>
        obtain ⟨rfl, rfl⟩ := Prog.pure_returns_iff.mp caught
        obtain ⟨-, below, silent⟩ := (plan_refusal crates planned).client_error
        rw [silent]
        exact .inl ⟨by omega, rfl⟩
    | @panicked _ buffered panic planned =>
        obtain ⟨answer, rest, rfl, answered⟩ := Prog.op_returns_iff.mp caught
        obtain ⟨rfl, rfl⟩ := Prog.pure_returns_iff.mp answered
        exact .inr ⟨rfl, [], _, rfl, rfl, .caught routed⟩
    | published buffered planned now =>
        obtain ⟨rfl, rfl⟩ := Prog.pure_returns_iff.mp caught
        rw [List.append_nil]
        exact .inl ⟨show (202 : Nat) ≠ 500 by decide, reportsOf_published now _⟩
    | @failed _ buffered done rest sheep planned now e =>
        obtain ⟨rfl, rfl⟩ := Prog.pure_returns_iff.mp caught
        have quiet : reportsOf (⟨.now, now⟩ :: (done.map fun sheep =>
            produced crates now sheep (.ok ())) ++ [produced crates now sheep (.error e)]) = [] := by
          unfold reportsOf
          rw [List.filterMap_append, ← reportsOf, reportsOf_published]
          rfl
        cases e with
        | queueFull =>
            refine .inl ⟨show (503 : Nat) ≠ 500 by decide, ?_⟩
            rw [List.append_nil]
            exact quiet
        | backend detail =>
            rw [List.append_nil]
            refine .inr ⟨rfl, _, ⟨"AppError::Internal", "kafka backend error: " ++ detail, true⟩, ?_,
              quiet, .internal (List.mem_append_right _ List.mem_cons_self) routed⟩
            simp [publishError, AppError.reports, AppError.exceptionReport, internalReport,
              AnyhowError.render]

end Reports

/-! ## What a task does next -/

section Tasks

variable {crates : Crates} {state : AppState} {request : Request} {config : PostHogConfig}
  {events : List (Event TaskEffect TaskEffect.Answer)} {outcome : Option Response}
  {sink : ExceptionSink}

/-- An event of a request among those of the process. -/
def served (event : Event Effect Effect.Answer) : Event TaskEffect TaskEffect.Answer :=
  ⟨.serving event.1, event.2⟩

theorem serving_returns_iff :
    Prog.Returns ((Task.serving request).program crates state) events outcome ↔
      ∃ trace response, events = trace.map served ∧ outcome = some response ∧
        Prog.Returns (serve crates state request) trace response := by
  constructor
  · intro returned
    obtain ⟨made, rest, rfl, ended, steps⟩ := Prog.embed_steps_iff.mp returned
    cases rest with
    | op e k => cases ended
    | pure a =>
        cases ended
        obtain ⟨trace, _, response, whole, ended, answered⟩ := Prog.bind_returns_iff.mp steps
        obtain ⟨rfl, rfl⟩ := Prog.pure_returns_iff.mp answered
        rw [List.append_nil] at whole
        refine ⟨trace, response, ?_, rfl, ended⟩
        rw [← whole, List.map_map]
        rfl
  · intro own
    obtain ⟨trace, response, rfl, rfl, ended⟩ := own
    refine Prog.embed_steps_iff.mpr ⟨trace.map fun event => ⟨event.1, event.2⟩, .pure (some response),
      ?_, rfl, ?_⟩
    · rw [List.map_map]
      rfl
    · rw [List.map_map]
      refine Prog.bind_returns_iff.mpr ⟨trace, [], response, ?_, ended, .refl _⟩
      rw [List.append_nil]
      exact List.map_id trace

theorem report_not_mem {quiet : List (Event Effect Effect.Answer)} {report : ExceptionReport}
    (silent : reportsOf quiet = []) :
    (⟨.serving (.report report), ()⟩ : Event TaskEffect TaskEffect.Answer) ∉ quiet.map served := by
  intro member
  obtain ⟨event, inside, same⟩ := List.mem_map.mp member
  obtain ⟨effect, answer⟩ := event
  cases same
  exact Option.some_ne_none _ (List.filterMap_eq_nil_iff.mp silent _ inside)

/-- Once a request has reported, it is answered, and with a 500. -/
theorem serving_report {report : ExceptionReport}
    {k : Unit → Prog TaskEffect TaskEffect.Answer (Option Response)}
    (steps : Prog.Steps ((Task.serving request).program crates state) events
      (.op (.serving (.report report)) k)) :
    ∃ trace response, k () = .pure (some response) ∧ response.status = 500 ∧
      events ++ [⟨.serving (.report report), ()⟩] = trace.map served ∧
      Fault crates state request trace report.kind report.value report.handled response := by
  obtain ⟨later, outcome, rest⟩ := (k ()).exists_returns
  have whole := steps.trans (.answer () rest)
  obtain ⟨trace, response, same, rfl, ended⟩ := serving_returns_iff.mp whole
  rcases serve_reports ended with ⟨-, none⟩ | ⟨status, quiet, report', rfl, silent, fault⟩
  · exact absurd (by rw [← same]; exact List.mem_append_right _ List.mem_cons_self)
      (report_not_mem none)
  · rw [List.map_append, List.map_singleton] at same
    rcases List.eq_nil_or_concat later with rfl | ⟨more, last, rfl⟩
    · have whole := same
      obtain ⟨-, last⟩ := List.append_inj' same rfl
      cases last
      generalize ended : k () = q at rest ⊢
      cases rest
      exact ⟨_, response, rfl, status, by rw [whole, List.map_append, List.map_singleton], fault⟩
    · -- A second report would follow the only one.
      rw [List.concat_eq_append, ← List.cons_append, ← List.append_assoc] at same
      obtain ⟨front, -⟩ := List.append_inj' same rfl
      exact absurd (by rw [← front]; exact List.mem_append_right _ List.mem_cons_self)
        (report_not_mem silent)

/-- A request that ends with another effect is not answered 500. -/
theorem serving_quiet {effect : Effect} {response : Response}
    {k : effect.Answer → Prog TaskEffect TaskEffect.Answer (Option Response)}
    (quiet : ∀ report, effect ≠ .report report)
    (steps : Prog.Steps ((Task.serving request).program crates state) events
      (.op (.serving effect) k))
    {answer : effect.Answer} (ended : k answer = .pure (some response)) : response.status ≠ 500 := by
  have whole : Prog.Returns ((Task.serving request).program crates state)
      (events ++ [⟨.serving effect, answer⟩]) (some response) := by
    rw [Prog.Returns, ← ended]
    exact steps.snoc answer
  obtain ⟨trace, response', same, ⟨⟩, answered⟩ := serving_returns_iff.mp whole
  rcases serve_reports answered with ⟨status, -⟩ | ⟨-, front, report, rfl, -, -⟩
  · exact status
  · rw [List.map_append, List.map_singleton] at same
    obtain ⟨-, last⟩ := List.append_inj' same rfl
    cases last
    exact absurd rfl (quiet report)

theorem initializing_returns
    (returned : Prog.Returns ((Task.initializing config).program crates state) events outcome) :
    outcome = none := by
  obtain ⟨_, _, _, -, -, answered⟩ := Prog.bind_returns_iff.mp returned
  exact (Prog.pure_returns_iff.mp answered).2

/-- What an `init` call has done so far. -/
inductive InitTrace (config : PostHogConfig) : List (Event TaskEffect TaskEffect.Answer) → Prop where
  | nothing : InitTrace config []
  | off (inactive : config.active = none) (free : Bool) :
      InitTrace config [⟨.setSink noopSink, free⟩]
  | awaited {active : ActivePostHog} (wanted : config.active = some active)
      (result : Except String Unit) : InitTrace config [⟨.initGlobal active, result⟩]
  | set {active : ActivePostHog} (wanted : config.active = some active)
      (result : Except String Unit) (free : Bool) :
      InitTrace config [⟨.initGlobal active, result⟩, ⟨.setSink (sinkAfter result), free⟩]

theorem initializing_steps {rest : Prog TaskEffect TaskEffect.Answer (Option Response)}
    (steps : Prog.Steps ((Task.initializing config).program crates state) events rest) :
    InitTrace config events := by
  change Prog.Steps ((init config).bind fun _ => .pure none) events rest at steps
  unfold init at steps
  cases wanted : config.active with
  | none =>
      rw [wanted] at steps
      cases steps with
      | refl => exact .nothing
      | answer free steps =>
          obtain ⟨rfl, -⟩ := Prog.pure_steps_iff.mp steps
          exact .off wanted free
  | some active =>
      rw [wanted] at steps
      cases steps with
      | refl => exact .nothing
      | answer result steps =>
          cases steps with
          | refl => exact .awaited wanted result
          | answer free steps =>
              obtain ⟨rfl, -⟩ := Prog.pure_steps_iff.mp steps
              exact .set wanted result free

theorem InitTrace.not_serving (trace : InitTrace config events) {effect : Effect}
    {answer : effect.Answer} :
    (⟨.serving effect, answer⟩ : Event TaskEffect TaskEffect.Answer) ∉ events := by
  cases trace <;> simp

/-- An `init` call that set a sink other than the no-op had asked for capture, and
its set-up succeeded. -/
theorem InitTrace.active {sink : ExceptionSink} {free : Bool} (trace : InitTrace config events)
    (stored : (⟨.setSink sink, free⟩ : Event TaskEffect TaskEffect.Answer) ∈ events)
    (other : sink ≠ noopSink) :
    sink = posthogSink ∧ ∃ active, config.active = some active ∧
      events = [⟨.initGlobal active, .ok ()⟩, ⟨.setSink posthogSink, free⟩] := by
  cases trace with
  | nothing => cases stored
  | off inactive free =>
      cases List.mem_singleton.mp stored
      exact absurd rfl other
  | awaited wanted result => cases List.mem_singleton.mp stored
  | @set active wanted result free =>
      rcases List.mem_cons.mp stored with same | last
      · cases same
      · cases List.mem_singleton.mp last
        rcases result with e | ⟨⟩
        · exact absurd rfl other
        · exact ⟨rfl, active, wanted, rfl⟩

end Tasks

/-! ## The sink and its provenance -/

section Sink

variable {ι : Type} [DecidableEq ι]
  {c c' : System ι Tracking TaskEffect TaskEffect.Answer (Option Response)}
  {history : History ι TaskEffect TaskEffect.Answer}

/-- Whoever set the sink there is, is on record; nobody is without one; and without
one, or with the no-op, nothing was captured. -/
structure Provenance (s : Tracking) (history : History ι TaskEffect TaskEffect.Answer) : Prop where
  set : ∀ sink, s.sink = some sink → ∃ i, (⟨.setSink sink, true⟩ : Event _ _) ∈ History.of i history
  unset : s.sink = none → ∀ sink i, (i, ⟨.setSink sink, true⟩) ∉ history
  quiet : s.sink = none ∨ s.sink = some noopSink → s.captured = []

theorem Provenance.kept {s s' : Tracking} {entry : ι × Event TaskEffect TaskEffect.Answer}
    (before : Provenance s history) (same : s'.sink = s.sink)
    (other : ∀ sink i, (i, ⟨.setSink sink, true⟩) ≠ entry)
    (quiet : s.sink = none ∨ s.sink = some noopSink → s'.captured = s.captured) :
    Provenance s' (history ++ [entry]) where
  set sink held := by
    obtain ⟨j, member⟩ := before.set sink (same ▸ held)
    exact ⟨j, by rw [History.of_append]; exact List.mem_append_left _ member⟩
  unset free sink i member := by
    rcases List.mem_append.mp member with earlier | last
    · exact before.unset (same ▸ free) sink i earlier
    · exact other sink i (List.mem_singleton.mp last)
  quiet off := by
    rw [same] at off
    rw [quiet off]
    exact before.quiet off

theorem reportException_off {sink : Option ExceptionSink} (off : sink = none ∨ sink = some noopSink)
    (report : ExceptionReport) (captured : List PosthogEvent) :
    (reportException sink report captured).2 = captured := by
  rcases off with rfl | rfl
  · rfl
  · rfl

theorem provenance_step {i : ι} {s : Tracking} {effect : TaskEffect} {answer : effect.Answer}
    (before : Provenance s history) (allowed : s.allows effect answer) :
    Provenance (s.after effect) (history ++ [(i, ⟨effect, answer⟩)]) := by
  match effect, answer, allowed with
  | .serving (.report report), _, _ =>
      refine before.kept rfl ?_ fun off => reportException_off off report s.captured
      intro sink j same
      cases same
  | .serving .now, _, _ | .serving (.produce _), _, _ | .initGlobal _, _, _ =>
      refine before.kept rfl ?_ fun _ => rfl
      intro sink j same
      cases same
  | .setSink sink, free, allowed =>
      have allowed : free = s.sink.isNone := allowed
      cases held : s.sink with
      | some first =>
          rw [held] at allowed
          subst allowed
          refine before.kept (by rw [Tracking.after, held, Option.some_or]) ?_ fun _ => rfl
          intro sink' j same
          cases same
      | none =>
          rw [held] at allowed
          subst allowed
          have stored : (s.after (.setSink sink)).sink = some sink := by
            rw [Tracking.after, held, Option.none_or]
          refine ⟨?_, ?_, fun _ => before.quiet (.inl held)⟩
          · intro sink' same
            rw [stored, Option.some.injEq] at same
            refine ⟨i, ?_⟩
            rw [History.of_append, History.of_single_self, same]
            exact List.mem_append_right _ List.mem_cons_self
          · intro free
            rw [stored] at free
            cases free

theorem provenance_run (run : Run (tracking ι) c history c') (unset : c.shared = ⟨none, []⟩) :
    Provenance c'.shared history := by
  refine Run.induct Provenance ?_ ?_ ?_ run
  · rw [unset]
    refine ⟨?_, fun _ _ _ => List.not_mem_nil, fun _ => rfl⟩
    intro sink held
    cases held
  · intro i s effect answer s' h before answered
    obtain ⟨allowed, rfl⟩ := answered
    exact provenance_step before allowed
  · intro s s' h before moved
    exact moved.elim

theorem Tracking.after_sink {s : Tracking} {sink : ExceptionSink} (held : s.sink = some sink)
    (effect : TaskEffect) : (s.after effect).sink = some sink := by
  match effect with
  | .serving (.report _) | .serving .now | .serving (.produce _) | .initGlobal _ => exact held
  | .setSink other =>
      show s.sink.or (some other) = some sink
      rw [held]
      rfl

/-- **The sink keeps its first value.** -/
theorem sink_kept {sink : ExceptionSink} (run : Run (tracking ι) c history c')
    (held : c.shared.sink = some sink) : c'.shared.sink = some sink := by
  refine Run.induct (fun s _ => s.sink = some sink) held ?_ ?_ run
  · intro i s effect answer s' h before answered
    obtain ⟨-, rfl⟩ := answered
    exact Tracking.after_sink before effect
  · intro s s' h before moved
    exact moved.elim

end Sink

/-! ## What is captured -/

section Captured

variable {ι : Type} [DecidableEq ι] (crates : Crates) (state : AppState) (tasks : ι → Task)

omit [DecidableEq ι] in
/-- Every task at its beginning. -/
def programs (i : ι) : Prog TaskEffect TaskEffect.Answer (Option Response) :=
  (tasks i).program crates state

/-- A task that was answered 500. -/
def serverError (entry : ι × Option Response) : Bool :=
  entry.2.any fun response => response.status = 500

/-- `event` tells PostHog of the fault that this request, by the calls it made, was
answered with. -/
def Captures (history : History ι TaskEffect TaskEffect.Answer) (event : PosthogEvent)
    (entry : ι × Option Response) : Prop :=
  ∃ request trace kind value handled response,
    tasks entry.1 = .serving request ∧ entry.2 = some response ∧
    (∃ past, past <+: history ∧ History.of entry.1 past = trace.map served) ∧
    Fault crates state request trace kind value handled response ∧
    event = ⟨"$exception", "countingsheep-backend",
      [("$exception_list", .array [.object [
          ("mechanism", .object [("handled", .bool handled), ("synthetic", .bool false),
            ("type", .string "generic")]),
          ("type", .string kind), ("value", .string value)]]),
        ("$exception_level", .string "error")]⟩

variable {crates state tasks} {history later : History ι TaskEffect TaskEffect.Answer}

theorem Captures.mono {event : PosthogEvent} {entry : ι × Option Response}
    (captures : Captures crates state tasks history event entry) :
    Captures crates state tasks (history ++ later) event entry := by
  obtain ⟨request, trace, kind, value, handled, response, task, answer, made, rest⟩ := captures
  obtain ⟨past, began, own⟩ := made
  exact ⟨request, trace, kind, value, handled, response, task, answer,
    ⟨past, began.trans (List.prefix_append _ _), own⟩, rest⟩

omit [DecidableEq ι] in
/-- What captures nothing ends with no 500. -/
theorem no_serverError {i : ι} {p : Prog TaskEffect TaskEffect.Answer (Option Response)}
    (other : ∀ response, p = .pure (some response) → response.status ≠ 500) :
    (Theory.ending i p).toList.filter serverError = [] := by
  cases p with
  | op e k => rfl
  | pure outcome =>
      cases outcome with
      | none => rfl
      | some response =>
          have status := other response rfl
          simp [Theory.ending, serverError, status]

/-- One step of a request captures what its answer calls for. -/
theorem serving_captures {i : ι} {request : Request} {effect : Effect}
    {k : effect.Answer → Prog TaskEffect TaskEffect.Answer (Option Response)}
    (task : tasks i = .serving request)
    (steps : Prog.Steps ((Task.serving request).program crates state) (History.of i history)
      (.op (.serving effect) k))
    (answer : effect.Answer) {s : Tracking} (installed : s.sink = some posthogSink) :
    ∃ new, (s.after (.serving effect)).captured = s.captured ++ new ∧
      List.Forall₂ (Captures crates state tasks (history ++ [(i, ⟨.serving effect, answer⟩)])) new
        ((Theory.ending i (k answer)).toList.filter serverError) := by
  cases effect with
  | report report =>
      obtain ⟨trace, response, answered, status, own, fault⟩ := serving_report steps
      refine ⟨[buildExceptionEvent report], ?_, ?_⟩
      · show (reportException s.sink report s.captured).2 = _
        rw [installed, reportException_posthog]
      · rw [show k answer = .pure (some response) from answered]
        have failed : serverError (i, some response) = true := by
          simp [serverError, status]
        have made : History.of i (history ++ [(i, ⟨.serving (.report report), answer⟩)]) =
            trace.map served := by
          rw [History.of_append, History.of_single_self]
          exact own
        rw [Theory.ending, Option.toList_some, List.filter_cons_of_pos failed, List.filter_nil]
        exact .cons ⟨request, trace, report.kind, report.value, report.handled, response, task, rfl,
          ⟨_, List.prefix_refl _, made⟩, fault, buildExceptionEvent_eq report⟩ .nil
  | now | produce =>
      refine ⟨[], (List.append_nil _).symm, ?_⟩
      rw [no_serverError]
      · exact .nil
      · intro response ended
        exact serving_quiet (by intro report same; cases same) steps ended

omit [DecidableEq ι] in
/-- One step of an `init` call captures nothing, and answers nobody. -/
theorem initializing_captures {i : ι} {config : PostHogConfig} {effect : TaskEffect}
    {events : List (Event TaskEffect TaskEffect.Answer)}
    {k : effect.Answer → Prog TaskEffect TaskEffect.Answer (Option Response)}
    (steps : Prog.Steps ((Task.initializing config).program crates state) events (.op effect k))
    (answer : effect.Answer) (s : Tracking) :
    (s.after effect).captured = s.captured ∧
      (Theory.ending i (k answer)).toList.filter serverError = [] := by
  have whole := steps.snoc answer
  constructor
  · cases effect with
    | serving effect =>
        apply absurd (List.mem_append_right _ List.mem_cons_self)
        exact (initializing_steps whole).not_serving
    | initGlobal active => rfl
    | setSink sink => rfl
  · apply no_serverError
    intro response ended
    rw [ended] at whole
    cases initializing_returns whole

/-- One step of a task captures what its answer calls for. -/
theorem captures_step {i : ι} {effect : TaskEffect}
    {k : effect.Answer → Prog TaskEffect TaskEffect.Answer (Option Response)}
    (steps : Prog.Steps (programs crates state tasks i) (History.of i history) (.op effect k))
    (answer : effect.Answer) {s : Tracking} (installed : s.sink = some posthogSink) :
    ∃ new, (s.after effect).captured = s.captured ++ new ∧
      List.Forall₂ (Captures crates state tasks (history ++ [(i, ⟨effect, answer⟩)])) new
        ((Theory.ending i (k answer)).toList.filter serverError) := by
  unfold programs at steps
  cases task : tasks i with
  | serving request =>
      rw [task] at steps
      obtain ⟨effect, rfl⟩ := Prog.embed_steps_op steps
      exact serving_captures task steps answer installed
  | initializing config =>
      rw [task] at steps
      obtain ⟨same, none⟩ := initializing_captures (i := i) steps answer s
      refine ⟨[], by rw [same, List.append_nil], ?_⟩
      rw [none]
      exact .nil

end Captured

section Runs

variable {ι : Type} [DecidableEq ι] {crates : Crates} {state : AppState} {tasks : ι → Task}
  {c c' : System ι Tracking TaskEffect TaskEffect.Answer (Option Response)}
  {history later : History ι TaskEffect TaskEffect.Answer} {ended : List (ι × Option Response)}

/-- A step that sets a free sink to PostHog's. -/
theorem set_of_step {made : History ι TaskEffect TaskEffect.Answer}
    (step : Step (tracking ι) c made c') (free : c.shared.sink = none) {sink : ExceptionSink}
    (installed : c'.shared.sink = some sink) :
    ∃ i, made = [(i, ⟨.setSink sink, true⟩)] ∧ c'.shared.captured = c.shared.captured := by
  cases step with
  | drift moved => exact moved.elim
  | @effect i effect k answer s' next answered =>
      obtain ⟨allowed, rfl⟩ := answered
      match effect, answer, allowed with
      | .serving (.report _), _, _ | .serving .now, _, _ | .serving (.produce _), _, _
      | .initGlobal _, _, _ =>
          have kept : c.shared.sink = some sink := installed
          rw [free] at kept
          cases kept
      | .setSink other, stored, allowed =>
          have allowed : stored = c.shared.sink.isNone := allowed
          have kept : c.shared.sink.or (some other) = some sink := installed
          rw [free, Option.none_or, Option.some.injEq] at kept
          rw [free] at allowed
          subst kept allowed
          exact ⟨i, rfl, rfl⟩

/-- How PostHog's sink got where it is: what happened before, who set it, and the
requests answered since, whose faults are what was captured. -/
structure Installation (crates : Crates) (state : AppState) (tasks : ι → Task)
    (history : History ι TaskEffect TaskEffect.Answer) (ended : List (ι × Option Response))
    (c : System ι Tracking TaskEffect TaskEffect.Answer (Option Response))
    (before after : History ι TaskEffect TaskEffect.Answer) (winner : ι)
    (late : List (ι × Option Response)) : Prop where
  split : history = before ++ [(winner, ⟨.setSink posthogSink, true⟩)] ++ after
  unset : ∀ sink i, (i, ⟨.setSink sink, true⟩) ∉ before
  asked : ∃ config active, tasks winner = .initializing config ∧ config.active = some active ∧
    config.enabled = .on ∧ config.apiKey = some active.apiKey ∧ config.host = active.host ∧
    History.of winner before = [⟨.initGlobal active, .ok ()⟩]
  since : ∃ early start, ended = early ++ late ∧
    Finishes (tracking ι) ⟨⟨none, []⟩, programs crates state tasks⟩
      (before ++ [(winner, ⟨.setSink posthogSink, true⟩)]) early start ∧
    Finishes (tracking ι) start after late c
  captured : List.Forall₂ (Captures crates state tasks history) c.shared.captured
    (late.filter serverError)

theorem posthogSink_ne_noopSink : posthogSink ≠ noopSink := by
  intro same
  have reports := congrArg (fun sink => (sink.report (panicReport "") []).2) same
  simp [posthogSink, noopSink] at reports

/-- Whoever set a sink other than the no-op is an `init` call that asked for capture
and whose set-up had succeeded. -/
theorem setter_run {s : Tracking}
    (run : Run (tracking ι) ⟨s, programs crates state tasks⟩ history c) {i : ι}
    {sink : ExceptionSink} {free : Bool}
    (stored : (⟨.setSink sink, free⟩ : Event _ _) ∈ History.of i history) (other : sink ≠ noopSink) :
    sink = posthogSink ∧ ∃ config active, tasks i = .initializing config ∧
      config.active = some active ∧
      History.of i history = [⟨.initGlobal active, .ok ()⟩, ⟨.setSink posthogSink, free⟩] := by
  have steps : Prog.Steps ((tasks i).program crates state) (History.of i history) (c.threads i) :=
    run.steps i
  cases task : tasks i with
  | serving request =>
      rw [task] at steps
      obtain ⟨made, rest, own, -, -⟩ := Prog.embed_steps_iff.mp steps
      rw [own] at stored
      obtain ⟨event, -, same⟩ := List.mem_map.mp stored
      cases same
  | initializing config =>
      rw [task] at steps
      obtain ⟨same, active, wanted, whole⟩ := (initializing_steps steps).active stored other
      exact ⟨same, config, active, rfl, wanted, whole⟩

/-- From an unset sink, only PostHog's sink captures. -/
theorem captured_posthog (run : Run (tracking ι) ⟨⟨none, []⟩, programs crates state tasks⟩ history c)
    (nonempty : c.shared.captured ≠ []) : c.shared.sink = some posthogSink := by
  have record := provenance_run run rfl
  cases held : c.shared.sink with
  | none => exact absurd (record.quiet (.inl held)) nonempty
  | some sink =>
      by_cases noop : sink = noopSink
      · subst noop
        exact absurd (record.quiet (.inr held)) nonempty
      · obtain ⟨i, stored⟩ := record.set sink held
        obtain ⟨rfl, -⟩ := setter_run run stored noop
        rfl

/-- **Under PostHog's sink, what was captured is the faults of the requests answered
500 since it was set.** -/
theorem installed_run
    (finishes : Finishes (tracking ι) ⟨⟨none, []⟩, programs crates state tasks⟩ history ended c)
    (installed : c.shared.sink = some posthogSink) :
    ∃ before after winner late,
      Installation crates state tasks history ended c before after winner late := by
  induction finishes with
  | refl => cases installed
  | @snoc history made ended c' c'' finishes step ih =>
      cases held : c'.shared.sink with
      | none =>
          -- This step sets the sink: nothing was captured before it.
          obtain ⟨winner, rfl, same⟩ := set_of_step step held installed
          have record := provenance_run finishes.run rfl
          have stored : (⟨.setSink posthogSink, true⟩ : Event _ _) ∈
              History.of winner (history ++ [(winner, ⟨.setSink posthogSink, true⟩)]) := by
            rw [History.of_append, History.of_single_self]
            exact List.mem_append_right _ List.mem_cons_self
          obtain ⟨-, config, active, task, wanted, whole⟩ :=
            setter_run (finishes.run.snoc step) stored posthogSink_ne_noopSink
          rw [History.of_append, History.of_single_self] at whole
          obtain ⟨asked, -⟩ := List.append_inj' (show _ ++ [_] = [_] ++ [_] from whole) rfl
          obtain ⟨enabled, key, host⟩ := PostHogConfig.active_eq_some_iff.mp wanted
          refine ⟨history, [], winner, [], (List.append_nil _).symm, record.unset held,
            ⟨config, active, task, wanted, enabled, key, host, asked⟩,
            ⟨_, c'', (List.append_nil _).symm, finishes.snoc step, .refl⟩, ?_⟩
          rw [same, record.quiet (.inl held)]
          exact .nil
      | some sink =>
          have kept := sink_kept (Run.refl.snoc step) held
          rw [installed, Option.some.injEq] at kept
          subst kept
          obtain ⟨before, after, winner, late, installation⟩ := ih held
          obtain ⟨early, start, rfl, first, since⟩ := installation.since
          refine ⟨before, after ++ made, winner, late ++ endings made c'', ?_, installation.unset,
            installation.asked,
            ⟨early, start, List.append_assoc .., first, since.snoc step⟩, ?_⟩
          · rw [installation.split, List.append_assoc]
          · cases step with
            | drift moved => exact moved.elim
            | @effect i effect k answer s' next answered =>
                obtain ⟨-, rfl⟩ := answered
                have steps := finishes.run.steps i
                rw [next] at steps
                obtain ⟨new, captured, related⟩ := captures_step steps answer held
                rw [Theory.endings_single, List.filter_append, captured]
                exact List.rel_append (installation.captured.imp fun _ _ => .mono) related

/-! ## The same requests under another sink -/

/-- The threads of the requests, every `init` call still at its beginning. -/
def requestsOnly (crates : Crates) (state : AppState) (tasks : ι → Task)
    (threads : ι → Prog TaskEffect TaskEffect.Answer (Option Response)) (i : ι) :
    Prog TaskEffect TaskEffect.Answer (Option Response) :=
  if (tasks i).serves then threads i else programs crates state tasks i

theorem requestsOnly_update {i : ι} (serves : (tasks i).serves = true)
    (threads : ι → Prog TaskEffect TaskEffect.Answer (Option Response))
    (p : Prog TaskEffect TaskEffect.Answer (Option Response)) :
    requestsOnly crates state tasks (Function.update threads i p) =
      Function.update (requestsOnly crates state tasks threads) i p := by
  funext j
  by_cases same : j = i
  · subst same
    simp only [requestsOnly, serves, Function.update_self, if_true]
  · simp only [requestsOnly, Function.update_of_ne same]

theorem requestsOnly_update_init {i : ι} (initializes : (tasks i).serves = false)
    (threads : ι → Prog TaskEffect TaskEffect.Answer (Option Response))
    (p : Prog TaskEffect TaskEffect.Answer (Option Response)) :
    requestsOnly crates state tasks (Function.update threads i p) =
      requestsOnly crates state tasks threads := by
  funext j
  by_cases same : j = i
  · subst same
    simp only [requestsOnly, initializes, Bool.false_eq_true, if_false]
  · simp only [requestsOnly, Function.update_of_ne same]

omit [DecidableEq ι] in
/-- An effect of a request is allowed whatever the sink, and leaves it in place. -/
theorem serving_answered {i : ι} (effect : Effect) (answer : effect.Answer) (s : Tracking) :
    (tracking ι).answer i s (.serving effect) answer ⟨s.sink, (s.after (.serving effect)).captured⟩ := by
  cases effect with
  | report report => exact ⟨reportException_returns s.sink report s.captured, rfl⟩
  | now | produce => exact ⟨trivial, rfl⟩

/-- **Requests end the same, in the same order, under any two sinks**, whatever
`init` calls run beside them. A request without effects, as most 4xx are, has its
response from the start and is in neither list; its thread is the same in both. -/
theorem serve_any_sink {first : Tracking}
    (finishes : Finishes (tracking ι) ⟨first, programs crates state tasks⟩ history ended c)
    (other : Tracking) : ∃ captured,
      Finishes (tracking ι) ⟨other, programs crates state tasks⟩
        (history.filter fun entry => (tasks entry.1).serves)
        (ended.filter fun entry => (tasks entry.1).serves)
        ⟨⟨other.sink, captured⟩, requestsOnly crates state tasks c.threads⟩ := by
  induction finishes with
  | refl =>
      have start : requestsOnly crates state tasks (programs crates state tasks) =
          programs crates state tasks := by
        funext i
        exact ite_self _
      exact ⟨other.captured, by rw [start]; exact .refl⟩
  | @snoc history made ended c' c'' finishes step ih =>
      obtain ⟨captured, replayed⟩ := ih
      cases step with
      | drift moved => exact moved.elim
      | @effect i effect k answer s' next answered =>
          rw [List.filter_append, List.filter_append, Theory.endings_single,
            Theory.ending_filter i _ fun j => (tasks j).serves]
          have steps : Prog.Steps ((tasks i).program crates state) (History.of i history)
              (c'.threads i) := finishes.run.steps i
          rw [next] at steps
          cases task : tasks i with
          | initializing config =>
              have initializes : (tasks i).serves = false := by rw [task]; rfl
              rw [List.filter_cons_of_neg (by simp [initializes]), requestsOnly_update_init initializes]
              simp only [Task.serves, List.filter_nil, List.append_nil, Bool.false_eq_true, if_false]
              exact ⟨captured, replayed⟩
          | serving request =>
              rw [task] at steps
              obtain ⟨effect, rfl⟩ := Prog.embed_steps_op steps
              have serves : (tasks i).serves = true := by rw [task]; rfl
              have next' : requestsOnly crates state tasks c'.threads i = .op (.serving effect) k := by
                rw [requestsOnly, serves, if_pos rfl, next]
              have again := replayed.snoc
                (.effect next' (serving_answered effect answer ⟨other.sink, captured⟩))
              rw [Theory.endings_single, ← requestsOnly_update serves] at again
              have kept (event : Event TaskEffect TaskEffect.Answer) :
                  [(i, event)].filter (fun entry => (tasks entry.1).serves) = [(i, event)] :=
                List.filter_cons_of_pos serves
              rw [kept]
              exact ⟨_, again⟩

/-- **Exception egress is exact and never disturbs serving.** Nothing is captured
without PostHog's sink; the sink is never replaced; PostHog's was set by an `init`
call that wanted capture and had the client, and what was captured since is the
faults answered 500, in order. Without the `init` calls and under any other sink, the
requests end alike. -/
theorem exception_egress (crates : Crates) (state : AppState) (tasks : ι → Task) :
    (∀ history ended c,
      Finishes (tracking ι) ⟨⟨none, []⟩, programs crates state tasks⟩ history ended c →
      (c.shared.captured ≠ [] → c.shared.sink = some posthogSink) ∧
      (∀ sink, c.shared.sink = some sink →
        ∀ later c', Run (tracking ι) c later c' → c'.shared.sink = some sink) ∧
      (c.shared.sink = some posthogSink → ∃ before after winner late,
        Installation crates state tasks history ended c before after winner late)) ∧
    ∀ (first other : Tracking) history ended c,
      Finishes (tracking ι) ⟨first, programs crates state tasks⟩ history ended c →
      ∃ captured, Finishes (tracking ι) ⟨other, programs crates state tasks⟩
        (history.filter fun entry => (tasks entry.1).serves)
        (ended.filter fun entry => (tasks entry.1).serves)
        ⟨⟨other.sink, captured⟩, requestsOnly crates state tasks c.threads⟩ := by
  refine ⟨?_, fun first other history ended c finishes => serve_any_sink finishes other⟩
  intro history ended c finishes
  refine ⟨captured_posthog finishes.run, ?_, installed_run finishes⟩
  intro sink held later c' run
  exact sink_kept run held

/-- An `init` call that wants capture, and one submission. -/
def initAndSubmission (submission : HeaderMap × Bytes) : Bool → Task
  | false => .initializing ⟨some "phc_key", .on, none⟩
  | true => .serving (sheepsRequest submission.1 (.whole submission.2))

/-- The broker fails after the sink is set: the failure is captured. -/
theorem backend_failure_run {submission : HeaderMap × Bytes} {sheep : Sheep}
    (within : submission.2.length ≤ defaultBodyLimit)
    (planned : plan crates state submission.1 submission.2 = .ok [sheep]) :
    ∃ history ended c, Finishes (tracking Bool)
        ⟨⟨none, []⟩, programs crates state (initAndSubmission submission)⟩ history ended c ∧
      c.shared.captured = [⟨"$exception", "countingsheep-backend",
        [("$exception_list", .array [.object [
            ("mechanism", .object [("handled", .bool true), ("synthetic", .bool false),
              ("type", .string "generic")]),
            ("type", .string "AppError::Internal"), ("value", .string "kafka backend error: down")]]),
          ("$exception_level", .string "error")]⟩] := by
  let report : ExceptionReport := ⟨"AppError::Internal", "kafka backend error: down", true⟩
  let trace : List (Event Effect Effect.Answer) :=
    [⟨.now, .epoch⟩, produced crates .epoch sheep (.error (.backend "down")), ⟨.report report, ()⟩]
  have ending : Ends crates state submission.1 (.whole submission.2) trace
      (.ok (publishError (.backend "down")).rendered) :=
    @Ends.failed crates state submission.1 _ submission.2 (bufferBody_whole within) [] [] sheep planned
      .epoch (.backend "down")
  have asked : Prog.Steps (programs crates state (initAndSubmission submission) false)
      [⟨.initGlobal ⟨"phc_key", none⟩, .ok ()⟩, ⟨.setSink posthogSink, true⟩] (.pure none) :=
    .answer _ (.answer _ (.refl _))
  have installs : (tracking Bool).Answers false ⟨none, []⟩
      [⟨.initGlobal ⟨"phc_key", none⟩, .ok ()⟩, ⟨.setSink posthogSink, true⟩]
      ⟨some posthogSink, []⟩ :=
    .cons ⟨trivial, rfl⟩ (.cons ⟨rfl, rfl⟩ (.nil _))
  have answered : Prog.Steps (programs crates state (initAndSubmission submission) true)
      (trace.map served) (.pure (some (publishError (.backend "down")).rendered)) :=
    serving_returns_iff.mpr ⟨trace, _, rfl, rfl, serve_returns_iff.mpr (.answered ending)⟩
  have captures : (tracking Bool).Answers true ⟨some posthogSink, []⟩ (trace.map served)
      ⟨some posthogSink, [buildExceptionEvent report]⟩ :=
    .cons ⟨trivial, rfl⟩ (.cons ⟨trivial, rfl⟩ (.cons ⟨rfl, rfl⟩ (.nil _)))
  let c : System Bool Tracking TaskEffect TaskEffect.Answer (Option Response) :=
    ⟨⟨none, []⟩, programs crates state (initAndSubmission submission)⟩
  let c' : System Bool Tracking TaskEffect TaskEffect.Answer (Option Response) :=
    ⟨⟨some posthogSink, []⟩, Function.update c.threads false (.pure none)⟩
  have first : Run (tracking Bool) c _ c' := Run.alone asked installs
  have second := Run.alone (c := c') (i := true) answered captures
  obtain ⟨ended, finishes⟩ := (first.trans second).finishes
  exact ⟨_, ended, _, finishes, congrArg (fun event => [event]) (buildExceptionEvent_eq report)⟩

def panickingSink : ExceptionSink := ⟨fun _ captured => (.error ⟨"sink boom"⟩, captured)⟩

/-- In that run PostHog's sink is installed and has the one event, and the submission is
served alike under a sink that panics. -/
theorem exception_egress_backend_failure :
    ∃ history ended c, Finishes (tracking Bool)
        ⟨⟨none, []⟩, programs reference ⟨100⟩ (initAndSubmission (singleRequest sampleEvent))⟩
        history ended c ∧
      c.shared.captured = [⟨"$exception", "countingsheep-backend",
        [("$exception_list", .array [.object [
            ("mechanism", .object [("handled", .bool true), ("synthetic", .bool false),
              ("type", .string "generic")]),
            ("type", .string "AppError::Internal"), ("value", .string "kafka backend error: down")]]),
          ("$exception_level", .string "error")]⟩] ∧
      (∃ before after winner late, Installation reference ⟨100⟩
        (initAndSubmission (singleRequest sampleEvent)) history ended c before after winner late) ∧
      ∃ captured, Finishes (tracking Bool)
        ⟨⟨some panickingSink, []⟩,
          programs reference ⟨100⟩ (initAndSubmission (singleRequest sampleEvent))⟩
        (history.filter fun entry => (initAndSubmission (singleRequest sampleEvent) entry.1).serves)
        (ended.filter fun entry => (initAndSubmission (singleRequest sampleEvent) entry.1).serves)
        ⟨⟨some panickingSink, captured⟩,
          requestsOnly reference ⟨100⟩ (initAndSubmission (singleRequest sampleEvent)) c.threads⟩ := by
  have within : (singleRequest sampleEvent).2.length ≤ defaultBodyLimit := by decide
  obtain ⟨history, ended, c, finishes, captured⟩ := backend_failure_run within (plan_sample ⟨100⟩)
  obtain ⟨runs, replays⟩ := exception_egress reference ⟨100⟩
    (initAndSubmission (singleRequest sampleEvent))
  obtain ⟨egress, -, installation⟩ := runs history ended c finishes
  have nonempty : c.shared.captured ≠ [] := by
    rw [captured]
    exact List.cons_ne_nil _ _
  exact ⟨history, ended, c, finishes, captured, installation (egress nonempty),
    replays ⟨none, []⟩ ⟨some panickingSink, []⟩ history ended c finishes⟩

end Runs

end CountingSheep.Observability
