/-
# CountingSheep.Http.Confidential — what a response tells of a producer

A request is served twice, by producers that may differ in how their failures are
worded, or in which kind of failure they report. Every layer of the service is
coupled with itself under such a difference: where `produce` answers differ, the
errors they become are rendered as `Observed` allows, and everything else is equal.

* `serve_coupled`: the whole service, from its layers.
* `failed_call_response`: a failed call alone decides the response.
* `failure_detail_confidential`: the wording of a backend failure never shows, and
  taking it for a full queue changes a 500 into a 503 and nothing else.
-/
import CountingSheep.Ingest.Acknowledge
import CountingSheep.Ingest.InTurn
import CountingSheep.Theory.Coupling

namespace CountingSheep.Http

open Rust Ingest Observability
open Theory (Prog Event)
open Theory.Prog (Coupled Answered loud)
open Theory.Json (Value)

set_option autoImplicit false

abbrev Outcome := Except ProduceError Unit

/-! ## Producers that answer alike -/

/-- What a producer answers to messages sent one after another. -/
def answers {σ : Type} (producer : Producer σ) : List ProducedMessage → σ → List Outcome
  | [], _ => []
  | message :: rest, s => (producer message s).1 :: answers producer rest (producer message s).2

/-- At every call, whatever is sent, the answers are related. -/
def Answering {σ τ : Type} (related : Outcome → Outcome → Prop) (producer : Producer σ)
    (producer' : Producer τ) (s : σ) (s' : τ) : Prop :=
  ∀ messages, List.Forall₂ related (answers producer messages s) (answers producer' messages s')

inductive Kind where
  | accepted
  | queueFull
  | backend
  deriving DecidableEq

def kind : Outcome → Kind
  | .ok () => .accepted
  | .error .queueFull => .queueFull
  | .error (.backend _) => .backend

def SameKind (outcome outcome' : Outcome) : Prop := kind outcome = kind outcome'

/-- The same kind of outcome, or a full queue in place of a backend failure. -/
def Softened (outcome outcome' : Outcome) : Prop :=
  kind outcome = kind outcome' ∨ kind outcome = .backend ∧ kind outcome' = .queueFull

theorem Answering.step {σ τ : Type} {related : Outcome → Outcome → Prop} {producer : Producer σ}
    {producer' : Producer τ} {s : σ} {s' : τ} (alike : Answering related producer producer' s s')
    (message : ProducedMessage) :
    related (producer message s).1 (producer' message s').1 ∧
      Answering related producer producer' (producer message s).2 (producer' message s').2 := by
  constructor
  · cases alike [message] with
    | cons head _ => exact head
  · intro messages
    cases alike (message :: messages) with
    | cons _ tail => exact tail

/-! ## The service is coupled with itself -/

def isReport : Effect → Bool
  | .report _ => true
  | .now | .produce _ => false

/-- Related answers: one clock, and `produce` outcomes that are related. -/
def AnswerRelated (related : Outcome → Outcome → Prop) : (effect : Effect) → effect.Answer → effect.Answer → Prop
  | .now, now, now' => now = now'
  | .produce _, outcome, outcome' => related outcome outcome'
  | .report _, _, _ => True

/-- What may be seen of related outcomes: acceptance is the same, and failures are
rendered as `seen` allows. -/
structure Observed (related : Outcome → Outcome → Prop) (seen : Response → Response → Prop) : Prop where
  refl : ∀ response, seen response response
  accepted : ∀ {outcome outcome'}, related outcome outcome' → (outcome = .ok () ↔ outcome' = .ok ())
  failed : ∀ {e e'}, related (.error e) (.error e') → seen (publishError e).rendered (publishError e').rendered

section Coupling

variable {related : Outcome → Outcome → Prop} {seen : Response → Response → Prop}

/-- Results of a handler: equal, or two failed calls that are related. -/
def ResultRelated {α : Type} (related : Outcome → Outcome → Prop) (result result' : Except Halt α) : Prop :=
  result = result' ∨ ∃ e e', result = .error (.error (publishError e)) ∧
    result' = .error (.error (publishError e')) ∧ related (.error e) (.error e')

/-- Results of the router: equal, or two responses that are related. -/
def AnsweredAlike (seen : Response → Response → Prop) (result result' : Exec Response) : Prop :=
  result = result' ∨ ∃ response response', result = .ok response ∧ result' = .ok response' ∧
    seen response response'

variable (related) in
abbrev Alike {α β : Type} (ends : α → β → Prop) (p : Prog Effect Effect.Answer α)
    (q : Prog Effect Effect.Answer β) : Prop :=
  Coupled (AnswerRelated related) isReport ends p q

variable (observed : Observed related seen) (crates : Crates)
include observed

theorem recordAccepted_coupled (accepted : AcceptedSheep) :
    Alike related (ResultRelated related) (recordAccepted crates accepted).run
      (recordAccepted crates accepted).run := by
  rw [recordAccepted_run]
  apply Coupled.op rfl
  intro outcome outcome' alike
  apply Coupled.pure
  rcases outcome with e | ⟨⟩ <;> rcases outcome' with e' | ⟨⟩
  · exact .inr ⟨e, e', rfl, rfl, alike⟩
  · cases (observed.accepted alike).mpr rfl
  · cases (observed.accepted alike).mp rfl
  · exact .inl rfl

theorem publishEach_coupled (now : OffsetDateTime) (sheeps : List Sheep) :
    Alike related (ResultRelated related) (publishEach crates now sheeps).run
      (publishEach crates now sheeps).run := by
  induction sheeps with
  | nil => exact Coupled.pure (.inl rfl)
  | cons sheep rest ih =>
      rw [publishEach, ExceptT.run_bind]
      apply (recordAccepted_coupled observed crates (stamp sheep now)).bind
      rintro result result' (rfl | ⟨e, e', rfl, rfl, alike⟩)
      · rcases result with halt | ⟨⟩
        · exact Coupled.pure (.inl rfl)
        · exact ih
      · exact Coupled.pure (.inr ⟨e, e', rfl, rfl, alike⟩)

theorem publishAll_coupled (sheeps : List Sheep) :
    Alike related (ResultRelated related) (publishAll crates sheeps).run
      (publishAll crates sheeps).run := by
  rw [publishAll_run]
  apply Coupled.op rfl
  rintro now _ rfl
  apply (publishEach_coupled observed crates now sheeps).bind
  rintro result result' (rfl | ⟨e, e', rfl, rfl, alike⟩)
  · exact Coupled.pure (.inl rfl)
  · exact Coupled.pure (.inr ⟨e, e', rfl, rfl, alike⟩)

theorem createSheep_coupled (state : AppState) (headers : HeaderMap) (body : Bytes) :
    Alike related (ResultRelated related) (createSheep crates state headers body).run
      (createSheep crates state headers body).run := by
  rw [createSheep_eq]
  cases plan crates state headers body with
  | error halt =>
      rw [follow_error]
      exact Coupled.pure (.inl rfl)
  | ok sheeps =>
      rw [follow_ok]
      exact publishAll_coupled observed crates sheeps

omit observed in
/-- Whether an error is reported makes no difference to its response. -/
theorem intoResponse_coupled {e e' : AppError} (rendered : seen e.rendered e'.rendered) :
    Alike related seen e.intoResponse e'.intoResponse := by
  have right : Alike related seen (.pure e.rendered) e'.intoResponse := by
    unfold AppError.intoResponse
    cases e'.exceptionReport with
    | none => exact .pure rendered
    | some report => exact .right rfl fun _ => .pure rendered
  unfold AppError.intoResponse at right ⊢
  cases e.exceptionReport with
  | none => exact right
  | some report => exact .left rfl fun _ => right

theorem respond_coupled {result result' : Except Halt StatusCode}
    (results : ResultRelated related result result') :
    Alike related (AnsweredAlike seen) (respond result) (respond result') := by
  have rendered : ∀ e e' : AppError, seen e.rendered e'.rendered →
      Alike related (AnsweredAlike seen) (respond (.error (.error e))) (respond (.error (.error e'))) := by
    intro e e' same
    exact (intoResponse_coupled same).bind fun a b related => .pure (.inr ⟨a, b, rfl, rfl, related⟩)
  rcases results with rfl | ⟨e, e', rfl, rfl, alike⟩
  · rcases result with (e | panic) | status
    · exact rendered e e (observed.refl _)
    · exact .pure (.inl rfl)
    · exact .pure (.inl rfl)
  · exact rendered _ _ (observed.failed alike)

theorem sheepsRoute_coupled (state : AppState) (request : Request) :
    Alike related (AnsweredAlike seen) (sheepsRoute crates state request)
      (sheepsRoute crates state request) := by
  unfold sheepsRoute
  cases bufferBody request.body with
  | error rejection => exact .pure (.inl rfl)
  | ok body =>
      exact (createSheep_coupled observed crates state request.headers body).bind
        fun _ _ results => respond_coupled observed results

theorem buildAxumRouter_coupled (state : AppState) (request : Request) :
    Alike related (AnsweredAlike seen) (buildAxumRouter crates state request)
      (buildAxumRouter crates state request) := by
  have refused (e : AppError) := respond_coupled observed (.inl (rfl : Except.error (.error e) = _))
  unfold buildAxumRouter
  split_ifs with healthy sheeps
  · split
    · exact .pure (.inl rfl)
    · exact .pure (.inl rfl)
    · exact refused _
  · split
    · exact sheepsRoute_coupled observed crates state request
    · exact refused _
  · exact refused _

/-- **The service is coupled with itself**: related `produce` answers lead to responses that are
related as far as they can be seen. -/
theorem serve_coupled (state : AppState) (request : Request) :
    Alike related seen (serve crates state request) (serve crates state request) := by
  apply (buildAxumRouter_coupled observed crates state request).bind
  rintro result result' (rfl | ⟨response, response', rfl, rfl, alike⟩)
  · cases result with
    | ok response => exact .pure (observed.refl response)
    | error panic => exact .left rfl fun _ => .right rfl fun _ => .pure (observed.refl _)
  · exact .pure alike

end Coupling

/-! ## What two traces have in common -/

/-- The calls of a trace, and what kind of outcome each had. -/
def callKinds (trace : List (Event Effect Effect.Answer)) : List (ProducedMessage × Kind) :=
  (calls trace).map fun call => (call.1, kind call.2)

/-- The same message, with related outcomes. -/
def CallRelated (related : Outcome → Outcome → Prop) (call call' : Call) : Prop :=
  call.1 = call'.1 ∧ related call.2 call'.2

theorem calls_loud (trace : List (Event Effect Effect.Answer)) :
    calls (loud isReport trace) = calls trace := by
  induction trace with
  | nil => rfl
  | cons event rest ih =>
      obtain ⟨effect, answer⟩ := event
      cases effect with
      | now | report => exact ih
      | produce message => exact congrArg (List.cons (message, answer)) ih

theorem calls_related {related : Outcome → Outcome → Prop} {trace trace' : List (Event Effect Effect.Answer)}
    (alike : List.Forall₂ (Answered (AnswerRelated related)) trace trace') :
    List.Forall₂ (CallRelated related) (calls trace) (calls trace') := by
  induction alike with
  | nil => exact .nil
  | cons head _ ih =>
      cases head with
      | @mk effect answer answer' same =>
          cases effect with
          | now | report => exact ih
          | produce message => exact .cons ⟨rfl, same⟩ ih

/-- Related traces whose calls had the same kinds of outcomes. -/
theorem sameKind_of_callKinds {related : Outcome → Outcome → Prop}
    {trace trace' : List (Event Effect Effect.Answer)}
    (alike : List.Forall₂ (Answered (AnswerRelated related)) trace trace')
    (kinds : callKinds trace = callKinds trace') :
    List.Forall₂ (Answered (AnswerRelated SameKind)) trace trace' := by
  induction alike with
  | nil => exact .nil
  | cons head _ ih =>
      cases head with
      | @mk effect answer answer' same =>
          cases effect with
          | now => exact .cons (.mk same) (ih kinds)
          | report => exact .cons (.mk trivial) (ih kinds)
          | produce message =>
              obtain ⟨first, later⟩ := List.cons.inj kinds
              exact .cons (.mk (Prod.mk.inj first).2) (ih later)

theorem callKinds_of_sameKind {made made' : List Call}
    (alike : List.Forall₂ (CallRelated SameKind) made made') :
    made.map (fun call => (call.1, kind call.2)) = made'.map fun call => (call.1, kind call.2) := by
  induction alike with
  | nil => rfl
  | cons head _ ih => rw [List.map_cons, List.map_cons, ih, head.1, head.2]

theorem kind_eq_accepted_iff {outcome : Outcome} : kind outcome = .accepted ↔ outcome = .ok () := by
  rcases outcome with (_ | _) | ⟨⟩ <;> simp [kind]

theorem Softened.accepted {outcome outcome' : Outcome} (softened : Softened outcome outcome') :
    outcome = .ok () ↔ outcome' = .ok () := by
  rw [← kind_eq_accepted_iff, ← kind_eq_accepted_iff]
  rcases softened with same | ⟨backend, full⟩
  · rw [same]
  · simp [backend, full]

theorem enqueued_of_softened {made made' : List Call} (alike : List.Forall₂ (CallRelated Softened) made made') :
    made.map Prod.fst = made'.map Prod.fst ∧
      made.filterMap acceptedMessage = made'.filterMap acceptedMessage := by
  induction alike with
  | nil => exact ⟨rfl, rfl⟩
  | @cons call call' rest rest' head _ ih =>
      obtain ⟨message, outcome⟩ := call
      obtain ⟨message', outcome'⟩ := call'
      obtain ⟨rfl, softened⟩ : message = message' ∧ Softened outcome outcome' := head
      have same := softened.accepted
      refine ⟨congrArg (List.cons message) ih.1, ?_⟩
      rcases outcome with e | ⟨⟩ <;> rcases outcome' with e' | ⟨⟩
      · exact ih.2
      · cases same.mpr rfl
      · cases same.mp rfl
      · exact congrArg (List.cons message) ih.2

/-- Softened calls of different kinds: somewhere a full queue took a backend failure's place. -/
theorem exists_replaced {made made' : List Call} (alike : List.Forall₂ (CallRelated Softened) made made')
    (differ : made.map (fun call => (call.1, kind call.2)) ≠ made'.map fun call => (call.1, kind call.2)) :
    ∃ message detail, (message, .error (.backend detail)) ∈ made ∧ (message, .error .queueFull) ∈ made' := by
  induction alike with
  | nil => exact absurd rfl differ
  | @cons call call' rest rest' head _ ih =>
      obtain ⟨message, outcome⟩ := call
      obtain ⟨message', outcome'⟩ := call'
      obtain ⟨rfl, softened⟩ : message = message' ∧ Softened outcome outcome' := head
      rcases softened with same | ⟨backend, full⟩
      · have later : rest.map (fun call => (call.1, kind call.2)) ≠
            rest'.map fun call => (call.1, kind call.2) := by
          intro equal
          apply differ
          rw [List.map_cons, List.map_cons, equal, same]
        obtain ⟨m, detail, inside, inside'⟩ := ih later
        exact ⟨m, detail, List.mem_cons_of_mem _ inside, List.mem_cons_of_mem _ inside'⟩
      · rcases outcome with (_ | detail) | ⟨⟩ <;> cases backend
        rcases outcome' with (_ | _) | ⟨⟩ <;> cases full
        exact ⟨message, detail, List.mem_cons_self, List.mem_cons_self⟩

/-! ## The response of a failed call -/

/-- A failed call is the last one, and decides the response. -/
theorem failed_call_response {crates : Crates} {state : AppState} {request : Request}
    {events : List (Event Effect Effect.Answer)} {response : Response} {message : ProducedMessage}
    {e : ProduceError} (returned : Prog.Returns (serve crates state request) events response)
    (failed : (message, .error e) ∈ calls events) : response = (publishError e).rendered := by
  by_cases submits : Submits request
  · obtain ⟨method, path, headers, body⟩ := request
    obtain ⟨rfl, rfl⟩ : method = .post ∧ path = "/api/v1/sheeps" := submits
    rcases served_went (serve_returns_iff.mp returned) with ⟨none, -⟩ | ⟨sheeps, now, -, -, called, -⟩ |
      ⟨done, sheep, rest, now, e', -, -, called, answered⟩
    · rw [none] at failed
      cases failed
    · rw [called] at failed
      obtain ⟨sheep, -, same⟩ := List.mem_map.mp failed
      cases same
    · rw [called] at failed
      rcases List.mem_append.mp failed with earlier | last
      · obtain ⟨sheep, -, same⟩ := List.mem_map.mp earlier
        cases same
      · cases List.mem_singleton.mp last
        exact answered
  · obtain ⟨first, later, result, rfl, routed, caught⟩ := Prog.bind_returns_iff.mp returned
    rcases router_returns routed with ⟨answer, rfl, rfl, -⟩ | ⟨elsewhere, -⟩
    · obtain ⟨rfl, -⟩ := Prog.pure_returns_iff.mp caught
      cases failed
    · exact absurd elsewhere submits

/-! ## Two runs -/

theorem observed_sameKind : Observed SameKind Eq where
  refl _ := rfl
  accepted same := by rw [← kind_eq_accepted_iff, ← kind_eq_accepted_iff, same]
  failed {e e'} same := by
    cases e <;> cases e' <;> first | rfl | cases same

theorem observed_softened : Observed Softened fun _ _ => True where
  refl _ := trivial
  accepted := Softened.accepted
  failed _ := trivial

section Runs

variable (crates : Crates) (state : AppState) (request : Request) (now : OffsetDateTime)

/-- A request served by one producer: its response, its trace, and the producer's state. -/
abbrev serveWith {σ : Type} (producer : Producer σ) (s : σ) :
    Response × List (Event Effect Effect.Answer) × σ :=
  (serve crates state request).interp (machine producer now) s

/-- `500`, without a `Retry-After`: `{"errors":[{"detail":"internal server error"}]}`. -/
def internalServerError : Response where
  status := 500
  headers := [("content-type", "application/json")]
  body := .json (.object [("errors", .array [.object [("detail", .string "internal server error")]])])

/-- `503`, with a `Retry-After`, its body of the same form. -/
def bufferFull : Response where
  status := 503
  headers := [("content-type", "application/json"), ("retry-after", "1")]
  body := .json (.object [("errors", .array [.object [
    ("detail", .string "event accepted but publish buffer full; retry shortly")]])])

variable {σ τ : Type} {producer : Producer σ} {producer' : Producer τ} {s : σ} {s' : τ}

theorem serveWith_answered {related : Outcome → Outcome → Prop} {seen : Response → Response → Prop}
    (observed : Observed related seen) (alike : Answering related producer producer' s s') :
    List.Forall₂ (Answered (AnswerRelated related))
      (loud isReport (serveWith crates state request now producer s).2.1)
      (loud isReport (serveWith crates state request now producer' s').2.1) := by
  refine Coupled.interp ?_ ?_ (serve_coupled observed crates state request) alike
  · intro effect s s' alike
    cases effect with
    | now => exact ⟨rfl, alike⟩
    | produce message => exact alike.step message
    | report report => exact ⟨trivial, alike⟩
  · intro effect s s' silent
    cases effect with
    | now | produce => cases silent
    | report => exact ⟨rfl, rfl⟩

/-- Two runs whose calls had the same kinds of outcomes are answered the same. -/
theorem serveWith_response
    (answered : List.Forall₂ (Answered (AnswerRelated SameKind))
      (loud isReport (serveWith crates state request now producer s).2.1)
      (loud isReport (serveWith crates state request now producer' s').2.1)) :
    (serveWith crates state request now producer s).1 =
      (serveWith crates state request now producer' s').1 :=
  (serve_coupled observed_sameKind crates state request).returns
    (Prog.interp_returns _ _ _) (Prog.interp_returns _ _ _) answered

/-- **Internal failure detail never reaches the client.** Producers that differ only in the text of
their backend failures get every request the same response. Where one reports a full queue and the
other a backend failure, the same messages are enqueued, and the response changes, if at all, from
the one 500 to the one 503. -/
theorem failure_detail_confidential (producer : Producer σ) (producer' : Producer τ) (s : σ) (s' : τ) :
    (Answering SameKind producer producer' s s' →
      (serveWith crates state request now producer s).1 =
        (serveWith crates state request now producer' s').1 ∧
      callKinds (serveWith crates state request now producer s).2.1 =
        callKinds (serveWith crates state request now producer' s').2.1) ∧
    (Answering Softened producer producer' s s' →
      (calls (serveWith crates state request now producer s).2.1).map Prod.fst =
        (calls (serveWith crates state request now producer' s').2.1).map Prod.fst ∧
      enqueued (serveWith crates state request now producer s).2.1 =
        enqueued (serveWith crates state request now producer' s').2.1 ∧
      (callKinds (serveWith crates state request now producer s).2.1 =
          callKinds (serveWith crates state request now producer' s').2.1 →
        (serveWith crates state request now producer s).1 =
          (serveWith crates state request now producer' s').1) ∧
      (callKinds (serveWith crates state request now producer s).2.1 ≠
          callKinds (serveWith crates state request now producer' s').2.1 →
        (serveWith crates state request now producer s).1 = internalServerError ∧
          (serveWith crates state request now producer' s').1 = bufferFull)) := by
  constructor
  · intro alike
    have answered := serveWith_answered crates state request now observed_sameKind alike
    have made := calls_related answered
    rw [calls_loud, calls_loud] at made
    exact ⟨serveWith_response crates state request now answered, callKinds_of_sameKind made⟩
  · intro alike
    have answered := serveWith_answered crates state request now observed_softened alike
    have made := calls_related answered
    rw [calls_loud, calls_loud] at made
    obtain ⟨messages, queued⟩ := enqueued_of_softened made
    refine ⟨messages, queued, ?_, ?_⟩
    · intro kinds
      rw [callKinds, callKinds, ← calls_loud, ← calls_loud (serveWith _ _ _ _ producer' s').2.1] at kinds
      exact serveWith_response crates state request now (sameKind_of_callKinds answered kinds)
    · intro differ
      obtain ⟨message, detail, failed, failed'⟩ := exists_replaced made differ
      exact ⟨failed_call_response (Prog.interp_returns _ _ _) failed,
        failed_call_response (Prog.interp_returns _ _ _) failed'⟩

end Runs

/-! ## A producer that always fails -/

def failing (e : ProduceError) : Producer Unit := fun _ s => (.error e, s)

theorem failing_answering {related : Outcome → Outcome → Prop} {e e' : ProduceError}
    (same : related (.error e) (.error e')) : Answering related (failing e) (failing e') () () := by
  intro messages
  induction messages with
  | nil => exact .nil
  | cons message rest ih => exact .cons same ih

theorem callKinds_failing {crates : Crates} {state : AppState} {headers : HeaderMap} {body : Bytes}
    {sheep : Sheep} (within : body.length ≤ defaultBodyLimit)
    (planned : plan crates state headers body = .ok [sheep]) (now : OffsetDateTime) (e : ProduceError) :
    callKinds (serveWith crates state (sheepsRequest headers (.whole body)) now (failing e) ()).2.1 =
      [(messageAt crates now sheep, kind (.error e))] := by
  have ending := @Ends.failed crates state headers _ body (bufferBody_whole within) [] [] sheep planned
    now e
  have gives : Prog.Gives (machine (failing e) now)
      (⟨.now, now⟩ :: produced crates now sheep (.error e) :: (publishError e).reports) () := by
    cases e with
    | queueFull => exact ⟨rfl, rfl, trivial⟩
    | backend detail => exact ⟨rfl, rfl, rfl, trivial⟩
  have trace := (Prog.interp_of_returns _ (serve_returns_iff.mpr (.answered ending)) gives).2
  change (calls ((serve crates state _).interp (machine (failing e) now) ()).2.1).map _ = _
  rw [trace]
  change (messageAt crates now sheep, kind (.error e)) :: (calls (publishError e).reports).map _ = _
  rw [calls_reports]
  rfl

/-- One event: two backend failures are answered alike, and a full queue as itself. -/
theorem failure_detail_confidential_sample :
    let served (e : ProduceError) := (serveWith reference ⟨1⟩ (sheepsRequest (singleRequest sampleEvent).1
      (.whole (singleRequest sampleEvent).2)) .epoch (failing e) ()).1
    served (.backend "disk 7 is full") = served (.backend "") ∧
      served (.backend "disk 7 is full") = internalServerError ∧ served .queueFull = bufferFull := by
  have within : (singleRequest sampleEvent).2.length ≤ defaultBodyLimit := by decide +kernel
  have confidential (e : ProduceError) := failure_detail_confidential reference ⟨1⟩
    (sheepsRequest (singleRequest sampleEvent).1 (.whole (singleRequest sampleEvent).2)) .epoch
    (failing (.backend "disk 7 is full")) (failing e) () ()
  have differ := callKinds_failing within (plan_sample ⟨1⟩) .epoch
  obtain ⟨-, -, -, replaced⟩ := (confidential .queueFull).2 (failing_answering (.inr ⟨rfl, rfl⟩))
  refine ⟨((confidential (.backend "")).1 (failing_answering rfl)).1, replaced ?_⟩
  rw [differ, differ]
  intro same
  cases (Prod.mk.inj (List.cons.inj same).1).2

end CountingSheep.Http
