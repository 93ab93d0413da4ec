/-
# CountingSheep.Observability.InitLog — what `init` logs, and whether it is true

The `init` of the error tracker with its `tracing` calls: one status line, saying
whether tracking ended up enabled or disabled and why, and a warning when the sink
had been set before. Any number of `init` calls and logged requests run at once.

* `erase_loggedProgram`: without the lines these are the tasks of `Egress`.
* `init_log_truthful`: in every run, an `init` call that has ended has written the
  status line that its configuration and its client set-up call for. Without the
  warning, the sink in place is the one the line names; with it, another call's line
  names it. Any sink in place is named by a line.
-/
import CountingSheep.Http.Logged
import CountingSheep.Observability.Egress

namespace CountingSheep.Observability

open Rust Http Ingest Config
open Theory (Prog Event Noted World System History Run)
open Theory.Noted (acts notes erase)

set_option autoImplicit false

abbrev LoggedTaskEffect := Noted TaskEffect Line

abbrev LoggedTaskEffect.Answer : LoggedTaskEffect → Type := Noted.Answer Line TaskEffect.Answer

section

variable (debug : String → String) (defaultHost : String)

/-! ## The code -/

/-- The status line of an awaited client. -/
def resultLine (active : ActivePostHog) : Except String Unit → Line
  | .ok () => .trackingEnabled (active.host.getD defaultHost)
  | .error error => .trackingFailed error

/-- The status line of a tracker that is not wanted. -/
def disabledLine (config : PostHogConfig) : Line :=
  match config.disabledReason with
  | some reason =>
      if isMisconfiguration reason then .trackingDisabled .warn (showReason debug reason)
      else .trackingDisabled .info (showReason debug reason)
  | none => .trackingDisabled .info ""

/-- `SINK.set`, with a warning if it was taken. -/
def setSink (sink : ExceptionSink) : Prog LoggedTaskEffect LoggedTaskEffect.Answer Unit :=
  .op (.act (.setSink sink)) fun free =>
    if free then .pure () else .op (.note .repeatInit) fun _ => .pure ()

/-- Initialize error tracking from config, and always log how that ended. -/
def loggedInit (config : PostHogConfig) : Prog LoggedTaskEffect LoggedTaskEffect.Answer Unit :=
  match config.active with
  | some active => .op (.act (.initGlobal active)) fun result =>
      .op (.note (resultLine defaultHost active result)) fun _ => setSink (sinkAfter result)
  | none => .op (.note (disabledLine debug config)) fun _ => setSink noopSink

/-- A task with its lines. -/
def Task.loggedProgram (crates : Crates) (state : AppState) :
    Task → Prog LoggedTaskEffect LoggedTaskEffect.Answer (Option Response)
  | .serving request =>
      ((Logged.serve crates state request).bind fun response => .pure (some response)).embed
        (Theory.Noted.widen .serving id) (Theory.Noted.widenBack fun _ => id)
  | .initializing config => (loggedInit debug defaultHost config).bind fun _ => .pure none

theorem erase_setSink (sink : ExceptionSink) :
    erase (setSink sink) = .op (.setSink sink) fun _ => .pure () := by
  rw [setSink, Theory.Noted.erase_act]
  congr 1
  funext free
  cases free <;> simp

theorem erase_loggedInit (config : PostHogConfig) : erase (loggedInit debug defaultHost config) = init config := by
  unfold loggedInit init
  cases config.active <;> simp [erase_setSink]

/-- **Without their lines, the logged tasks are the plain ones.** -/
theorem erase_loggedProgram (crates : Crates) (state : AppState) (task : Task) :
    erase (task.loggedProgram debug defaultHost crates state) = task.program crates state := by
  cases task with
  | serving request =>
      simp only [Task.loggedProgram, Task.program, Theory.Noted.erase_embed, Theory.Noted.erase_bind,
        Logged.erase_serve, Theory.Noted.erase_pure]
  | initializing config =>
      simp only [Task.loggedProgram, Task.program, Theory.Noted.erase_bind, erase_loggedInit,
        Theory.Noted.erase_pure]

/-! ## What an `init` call has done and written so far -/

abbrev LoggedTaskEvent := Event LoggedTaskEffect LoggedTaskEffect.Answer

/-- What `init` asks for on a configuration and is answered, the status line it then
writes, and the sink that the line names. -/
inductive StatusOf (config : PostHogConfig) : List LoggedTaskEvent → Line → ExceptionSink → Prop where
  | enabled {key : String} (on : config.enabled = .on) (held : config.apiKey = some key) :
      StatusOf config [⟨.act (.initGlobal ⟨key, config.host⟩), .ok ()⟩]
        ⟨.info, "error tracking enabled", [("host", .text (config.host.getD defaultHost))]⟩ posthogSink
  | failed {key : String} (on : config.enabled = .on) (held : config.apiKey = some key)
      (error : String) :
      StatusOf config [⟨.act (.initGlobal ⟨key, config.host⟩), .error error⟩]
        ⟨.warn, "PostHog initialization failed; error tracking disabled", [("error", .text error)]⟩
        noopSink
  | killswitch (off : config.enabled = .off) :
      StatusOf config []
        ⟨.info, "error tracking disabled", [("reason", .text "POSTHOG_ENABLED=false")]⟩ noopSink
  | noApiKey (on : config.enabled = .on) (missing : config.apiKey = none) :
      StatusOf config []
        ⟨.info, "error tracking disabled", [("reason", .text "POSTHOG_API_KEY not set")]⟩ noopSink
  | malformed {raw : String} (invalid : config.enabled = .invalid raw) :
      StatusOf config []
        ⟨.warn, "error tracking disabled", [("reason", .text
          ("POSTHOG_ENABLED must be one of true/false/1/0/yes/no/on/off, got " ++ debug raw ++
            "; treating error tracking as disabled"))]⟩ noopSink

variable {debug defaultHost} {config : PostHogConfig}

theorem statusOf_resultLine {active : ActivePostHog} (wanted : config.active = some active)
    (result : Except String Unit) :
    StatusOf debug defaultHost config [⟨.act (.initGlobal active), result⟩]
      (resultLine defaultHost active result) (sinkAfter result) := by
  obtain ⟨key, host⟩ := active
  obtain ⟨on, held, rfl⟩ := PostHogConfig.active_eq_some_iff.mp wanted
  rcases result with error | ⟨⟩
  · exact .failed on held error
  · exact .enabled on held

theorem statusOf_disabledLine (off : config.active = none) :
    StatusOf debug defaultHost config [] (disabledLine debug config) noopSink := by
  obtain ⟨apiKey, enabled, host⟩ := config
  cases enabled with
  | on =>
      cases apiKey with
      | none => exact .noApiKey rfl rfl
      | some key => cases off
  | off => exact .killswitch rfl
  | invalid raw => exact .malformed rfl

theorem StatusOf.not_set {asked : List LoggedTaskEvent} {line : Line} {sink sink' : ExceptionSink}
    {free : Bool} (status : StatusOf debug defaultHost config asked line sink') :
    (⟨.setSink sink, free⟩ : Event TaskEffect TaskEffect.Answer) ∉ acts asked := by
  cases status <;> simp

variable (debug defaultHost config) in
/-- What an `init` call has done and written so far, and whether it has ended. -/
inductive InitWritten : List LoggedTaskEvent → Bool → Prop where
  | nothing : InitWritten [] false
  | awaited (active : ActivePostHog) (result : Except String Unit) :
      InitWritten [⟨.act (.initGlobal active), result⟩] false
  | stated {asked : List LoggedTaskEvent} {line : Line} {sink : ExceptionSink}
      (status : StatusOf debug defaultHost config asked line sink) :
      InitWritten (asked ++ [⟨.note line, ⟨⟩⟩]) false
  | set {asked : List LoggedTaskEvent} {line : Line} {sink : ExceptionSink}
      (status : StatusOf debug defaultHost config asked line sink) :
      InitWritten (asked ++ [⟨.note line, ⟨⟩⟩, ⟨.act (.setSink sink), true⟩]) true
  | taken {asked : List LoggedTaskEvent} {line : Line} {sink : ExceptionSink}
      (status : StatusOf debug defaultHost config asked line sink) :
      InitWritten (asked ++ [⟨.note line, ⟨⟩⟩, ⟨.act (.setSink sink), false⟩]) false
  | warned {asked : List LoggedTaskEvent} {line : Line} {sink : ExceptionSink}
      (status : StatusOf debug defaultHost config asked line sink) :
      InitWritten (asked ++ [⟨.note line, ⟨⟩⟩, ⟨.act (.setSink sink), false⟩, ⟨.note .repeatInit, ⟨⟩⟩]) true

/-- From its status line on. -/
theorem stating_steps {asked events : List LoggedTaskEvent} {line : Line} {sink : ExceptionSink}
    {rest : Prog LoggedTaskEffect LoggedTaskEffect.Answer (Option Response)}
    (before : InitWritten debug defaultHost config asked false)
    (status : StatusOf debug defaultHost config asked line sink)
    (steps : Prog.Steps ((Prog.op (.note line) fun _ => setSink sink).bind fun _ => .pure none) events
      rest) :
    ∃ ended, InitWritten debug defaultHost config (asked ++ events) ended ∧
      ∀ outcome, rest = .pure outcome → ended = true := by
  cases steps with
  | refl =>
      rw [List.append_nil]
      exact ⟨false, before, fun _ same => by cases same⟩
  | answer _ steps =>
      cases steps with
      | refl => exact ⟨false, .stated status, fun _ same => by cases same⟩
      | answer free steps =>
          cases free with
          | true =>
              obtain ⟨rfl, rfl⟩ := Prog.pure_steps_iff.mp steps
              exact ⟨true, .set status, fun _ _ => rfl⟩
          | false =>
              cases steps with
              | refl => exact ⟨false, .taken status, fun _ same => by cases same⟩
              | answer _ steps =>
                  obtain ⟨rfl, rfl⟩ := Prog.pure_steps_iff.mp steps
                  exact ⟨true, .warned status, fun _ _ => rfl⟩

theorem loggedInit_steps {crates : Crates} {state : AppState} {events : List LoggedTaskEvent}
    {rest : Prog LoggedTaskEffect LoggedTaskEffect.Answer (Option Response)}
    (steps : Prog.Steps ((Task.initializing config).loggedProgram debug defaultHost crates state)
      events rest) :
    ∃ ended, InitWritten debug defaultHost config events ended ∧
      ∀ outcome, rest = .pure outcome → ended = true := by
  change Prog.Steps ((loggedInit debug defaultHost config).bind fun _ => .pure none) events rest at steps
  unfold loggedInit at steps
  cases wanted : config.active with
  | none =>
      rw [wanted] at steps
      exact stating_steps .nothing (statusOf_disabledLine wanted) steps
  | some active =>
      rw [wanted] at steps
      cases steps with
      | refl => exact ⟨false, .nothing, fun _ same => by cases same⟩
      | answer result steps =>
          exact stating_steps (.awaited active result) (statusOf_resultLine wanted result) steps

/-! ## What the lines say of the sink -/

section Written

variable {events : List LoggedTaskEvent} {ended : Bool}

/-- The call whose `SINK.set` succeeded has written the line that names the sink, and
nothing since. -/
theorem InitWritten.setter (written : InitWritten debug defaultHost config events ended)
    {sink : ExceptionSink}
    (stored : (⟨.setSink sink, true⟩ : Event TaskEffect TaskEffect.Answer) ∈ acts events) :
    ∃ asked line, StatusOf debug defaultHost config asked line sink ∧
      events = asked ++ [⟨.note line, ⟨⟩⟩, ⟨.act (.setSink sink), true⟩] := by
  cases written with
  | nothing => cases stored
  | awaited active result => cases List.mem_singleton.mp stored
  | stated status =>
      rw [Theory.Noted.acts_append] at stored
      rcases List.mem_append.mp stored with early | late
      · exact absurd early status.not_set
      · cases late
  | @set asked line sink' status =>
      rw [Theory.Noted.acts_append] at stored
      rcases List.mem_append.mp stored with early | late
      · exact absurd early status.not_set
      · cases List.mem_singleton.mp late
        exact ⟨asked, line, status, rfl⟩
  | taken status | warned status =>
      rw [Theory.Noted.acts_append] at stored
      rcases List.mem_append.mp stored with early | late
      · exact absurd early status.not_set
      · cases List.mem_singleton.mp late

/-- A call that has ended has set the sink its line names, or has been too late and said so. -/
theorem InitWritten.finished (written : InitWritten debug defaultHost config events true) :
    ∃ asked line sink, StatusOf debug defaultHost config asked line sink ∧
      (events = asked ++ [⟨.note line, ⟨⟩⟩, ⟨.act (.setSink sink), true⟩] ∨
        events = asked ++ [⟨.note line, ⟨⟩⟩, ⟨.act (.setSink sink), false⟩,
          ⟨.note ⟨.warn, "error tracking already initialized; ignoring repeat init", []⟩, ⟨⟩⟩]) := by
  generalize finished : true = ended at written
  cases written with
  | nothing | awaited | stated | taken => cases finished
  | set status => exact ⟨_, _, _, status, .inl rfl⟩
  | warned status => exact ⟨_, _, _, status, .inr rfl⟩

end Written

end

/-! ## In every run -/

section Run

variable {ι : Type} [DecidableEq ι] {c c' : System ι Tracking TaskEffect TaskEffect.Answer (Option Response)}
  {history : History ι TaskEffect TaskEffect.Answer}

/-- A sink that was set is there, and so is one that was in the way of another. -/
structure Recorded (s : Tracking) (history : History ι TaskEffect TaskEffect.Answer) : Prop where
  kept : ∀ i sink, (⟨.setSink sink, true⟩ : Event _ _) ∈ History.of i history → s.sink = some sink
  taken : ∀ i sink, (⟨.setSink sink, false⟩ : Event _ _) ∈ History.of i history → s.sink ≠ none

theorem recorded_run (run : Run (tracking ι) c history c') : Recorded c'.shared history := by
  refine Run.induct Recorded ⟨fun _ _ none => (List.not_mem_nil none).elim,
    fun _ _ none => (List.not_mem_nil none).elim⟩ ?_ ?_ run
  · intro j s effect answer s' h before answered
    obtain ⟨allowed, rfl⟩ := answered
    constructor
    · intro i sink member
      rw [History.of_append] at member
      rcases List.mem_append.mp member with earlier | last
      · exact Tracking.after_sink (before.kept i sink earlier) effect
      · by_cases here : j = i
        · subst here
          rw [History.of_single_self] at last
          cases List.mem_singleton.mp last
          have free : true = s.sink.isNone := allowed
          have unset : s.sink = none := Option.isNone_iff_eq_none.mp free.symm
          simp [Tracking.after, unset]
        · rw [History.of_single_ne here] at last
          cases last
    · intro i sink member
      rw [History.of_append] at member
      rcases List.mem_append.mp member with earlier | last
      · obtain ⟨first, held⟩ := Option.ne_none_iff_exists'.mp (before.taken i sink earlier)
        rw [Tracking.after_sink held effect]
        exact Option.some_ne_none first
      · by_cases here : j = i
        · subst here
          rw [History.of_single_self] at last
          cases List.mem_singleton.mp last
          have full : false = s.sink.isNone := allowed
          cases held : s.sink with
          | none => simp [held] at full
          | some first =>
              rw [Tracking.after_sink held]
              exact Option.some_ne_none first
        · rw [History.of_single_ne here] at last
          cases last
  · intro s s' h before moved
    exact moved.elim

end Run

section Truthful

variable {ι : Type} [DecidableEq ι] (debug : String → String) (defaultHost : String) (crates : Crates)
  (state : AppState) (tasks : ι → Task)

/-- Logged tasks before their first step, with no sink set. -/
def loggedTasks : System ι Tracking LoggedTaskEffect LoggedTaskEffect.Answer (Option Response) :=
  ⟨⟨none, []⟩, fun i => (tasks i).loggedProgram debug defaultHost crates state⟩

/-- `init` call `i` has set `sink`, and the one line it has written names it. -/
def Names (history : History ι LoggedTaskEffect LoggedTaskEffect.Answer) (i : ι)
    (sink : ExceptionSink) : Prop :=
  ∃ config asked line, tasks i = .initializing config ∧
    StatusOf debug defaultHost config asked line sink ∧
    History.of i history = asked ++ [⟨.note line, ⟨⟩⟩, ⟨.act (.setSink sink), true⟩]

variable {debug defaultHost crates state tasks}
  {history : History ι LoggedTaskEffect LoggedTaskEffect.Answer}
  {c : System ι Tracking LoggedTaskEffect LoggedTaskEffect.Answer (Option Response)}

omit [DecidableEq ι] in
theorem erase_loggedTasks : (loggedTasks debug defaultHost crates state tasks).erase =
    ⟨⟨none, []⟩, programs crates state tasks⟩ := by
  unfold loggedTasks System.erase programs
  simp only [erase_loggedProgram]

/-- Only an `init` call sets the sink, and its line says which. -/
theorem names_of_set
    (run : Run ((tracking ι).noted Line) (loggedTasks debug defaultHost crates state tasks) history c)
    {i : ι} {sink : ExceptionSink}
    (stored : (⟨.setSink sink, true⟩ : Event _ _) ∈ acts (History.of i history)) :
    Names debug defaultHost tasks history i sink := by
  cases task : tasks i with
  | serving request =>
      have steps := (Theory.run_erase run).steps i
      rw [erase_loggedTasks, Theory.History.of_acts] at steps
      change Prog.Steps ((tasks i).program crates state) _ _ at steps
      rw [task] at steps
      obtain ⟨made, rest, own, -, -⟩ := Prog.embed_steps_iff.mp steps
      rw [own] at stored
      obtain ⟨event, -, same⟩ := List.mem_map.mp stored
      cases same
  | initializing config =>
      have steps := run.steps i
      change Prog.Steps ((tasks i).loggedProgram debug defaultHost crates state) _ _ at steps
      rw [task] at steps
      obtain ⟨ended, written, -⟩ := loggedInit_steps steps
      obtain ⟨asked, line, status, own⟩ := written.setter stored
      exact ⟨config, asked, line, task, status, own⟩

/-- **The lines of `init` are true.** In every run of any number of `init` calls beside any requests,
a sink in place is named by the line of one of them. A call that has ended has written the status
line of its configuration and of how its client set-up was answered: it names the sink in place, or
a warning follows it, and the sink in place is named by another call. -/
theorem init_log_truthful (debug : String → String) (defaultHost : String) (crates : Crates)
    (state : AppState) (tasks : ι → Task)
    (history : History ι LoggedTaskEffect LoggedTaskEffect.Answer)
    (c : System ι Tracking LoggedTaskEffect LoggedTaskEffect.Answer (Option Response))
    (run : Run ((tracking ι).noted Line) (loggedTasks debug defaultHost crates state tasks) history c) :
    (∀ sink, c.shared.sink = some sink → ∃ i, Names debug defaultHost tasks history i sink) ∧
    ∀ i config, tasks i = .initializing config → c.threads i = .pure none →
      ∃ asked line sink, StatusOf debug defaultHost config asked line sink ∧
        ((History.of i history = asked ++ [⟨.note line, ⟨⟩⟩, ⟨.act (.setSink sink), true⟩] ∧
            c.shared.sink = some sink) ∨
          (History.of i history = asked ++ [⟨.note line, ⟨⟩⟩, ⟨.act (.setSink sink), false⟩,
              ⟨.note ⟨.warn, "error tracking already initialized; ignoring repeat init", []⟩, ⟨⟩⟩] ∧
            ∃ first other, c.shared.sink = some first ∧ other ≠ i ∧
              Names debug defaultHost tasks history other first)) := by
  have plain := Theory.run_erase run
  rw [erase_loggedTasks] at plain
  have provenance : Provenance c.shared (History.acts history) := provenance_run plain rfl
  have recorded : Recorded c.shared (History.acts history) := recorded_run plain
  have named (sink : ExceptionSink) (held : c.shared.sink = some sink) :
      ∃ i, Names debug defaultHost tasks history i sink := by
    obtain ⟨i, stored⟩ := provenance.set sink held
    rw [Theory.History.of_acts] at stored
    exact ⟨i, names_of_set run stored⟩
  refine ⟨named, ?_⟩
  intro i config task completed
  have steps := run.steps i
  change Prog.Steps ((tasks i).loggedProgram debug defaultHost crates state) _ _ at steps
  rw [task] at steps
  obtain ⟨ended, written, finished⟩ := loggedInit_steps steps
  rw [finished none completed] at written
  obtain ⟨asked, line, sink, status, own | own⟩ := written.finished
  · have stored : (⟨.setSink sink, true⟩ : Event _ _) ∈ History.of i (History.acts history) := by
      rw [Theory.History.of_acts, own, Theory.Noted.acts_append]
      exact List.mem_append_right _ List.mem_cons_self
    exact ⟨asked, line, sink, status, .inl ⟨own, recorded.kept i sink stored⟩⟩
  · have late : (⟨.setSink sink, false⟩ : Event _ _) ∈ History.of i (History.acts history) := by
      rw [Theory.History.of_acts, own, Theory.Noted.acts_append]
      exact List.mem_append_right _ List.mem_cons_self
    obtain ⟨first, held⟩ := Option.ne_none_iff_exists'.mp (recorded.taken i sink late)
    obtain ⟨other, names⟩ := named first held
    refine ⟨asked, line, sink, status, .inr ⟨own, first, other, held, ?_, names⟩⟩
    -- The other call's last event is its `SINK.set`, and this one's is the warning.
    rintro rfl
    obtain ⟨_, asked', line', -, -, own'⟩ := names
    rw [own] at own'
    have last := congrArg List.getLast? own'
    simp at last

/-- Two `init` calls: the first without a key, the second with one. -/
def twoInits : Bool → Task
  | false => .initializing ⟨none, .on, none⟩
  | true => .initializing ⟨some "phc_key", .on, none⟩

theorem setSink_free (sink : ExceptionSink) :
    Prog.Steps ((setSink sink).bind fun _ => .pure (none : Option Response))
      [⟨.act (.setSink sink), true⟩] (.pure none) := by
  unfold setSink
  exact .answer (show LoggedTaskEffect.Answer (.act (.setSink sink)) from true) (.refl _)

theorem setSink_taken (sink : ExceptionSink) :
    Prog.Steps ((setSink sink).bind fun _ => .pure (none : Option Response))
      [⟨.act (.setSink sink), false⟩, ⟨.note .repeatInit, ⟨⟩⟩] (.pure none) := by
  unfold setSink
  refine .answer (show LoggedTaskEffect.Answer (.act (.setSink sink)) from false) ?_
  exact .answer (show LoggedTaskEffect.Answer (.note .repeatInit) from ⟨⟩) (.refl _)

/-- The second call announces tracking that the first has already ruled out, and takes it back. -/
theorem init_log_truthful_repeat :
    ∃ history c, Run ((tracking Bool).noted Line) (loggedTasks id "default host" reference ⟨1000⟩ twoInits)
        history c ∧ c.shared.sink = some noopSink ∧
      ∃ asked line sink, StatusOf id "default host" ⟨some "phc_key", .on, none⟩ asked line sink ∧
        ((History.of true history = asked ++ [⟨.note line, ⟨⟩⟩, ⟨.act (.setSink sink), true⟩] ∧
            c.shared.sink = some sink) ∨
          (History.of true history = asked ++ [⟨.note line, ⟨⟩⟩, ⟨.act (.setSink sink), false⟩,
              ⟨.note ⟨.warn, "error tracking already initialized; ignoring repeat init", []⟩, ⟨⟩⟩] ∧
            ∃ first other, c.shared.sink = some first ∧ other ≠ true ∧
              Names id "default host" twoInits history other first)) := by
  let start := loggedTasks id "default host" reference ⟨1000⟩ twoInits
  have first : Prog.Steps (start.threads false) [⟨.note (disabledLine id ⟨none, .on, none⟩), ⟨⟩⟩,
      ⟨.act (.setSink noopSink), true⟩] (.pure none) := .answer _ (setSink_free _)
  have second : Prog.Steps (start.threads true) [⟨.act (.initGlobal ⟨"phc_key", none⟩), .ok ()⟩,
      ⟨.note (resultLine "default host" ⟨"phc_key", none⟩ (.ok ())), ⟨⟩⟩,
      ⟨.act (.setSink posthogSink), false⟩, ⟨.note .repeatInit, ⟨⟩⟩] (.pure none) :=
    .answer _ (.answer _ (setSink_taken _))
  have installs : (tracking Bool).Answers false ⟨none, []⟩ [⟨.setSink noopSink, true⟩]
      ⟨some noopSink, []⟩ := .cons ⟨rfl, rfl⟩ (.nil _)
  have ignored : (tracking Bool).Answers true ⟨some noopSink, []⟩
      [⟨.initGlobal ⟨"phc_key", none⟩, .ok ()⟩, ⟨.setSink posthogSink, false⟩]
      ⟨some noopSink, []⟩ := .cons ⟨trivial, rfl⟩ (.cons ⟨rfl, rfl⟩ (.nil _))
  have early := Run.alone (c := start) first (Theory.answers_noted installs)
  let middle : System Bool Tracking LoggedTaskEffect LoggedTaskEffect.Answer (Option Response) :=
    ⟨⟨some noopSink, []⟩, Function.update start.threads false (.pure none)⟩
  have late := Run.alone (c := middle) (i := true) second (Theory.answers_noted ignored)
  have run := early.trans late
  exact ⟨_, _, run, rfl, (init_log_truthful id "default host" reference ⟨1000⟩ twoInits _ _ run).2 true _ rfl
    (by simp only [Function.update_self])⟩

end Truthful

end CountingSheep.Observability
