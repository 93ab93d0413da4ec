/-
# CountingSheep.Ingest.Handler — `POST /api/v1/sheeps` and the accept seam

The handler dispatches on the media type, validates a single event or a whole
batch, reads the clock once, and enqueues the accepted events one by one.

Under the code sits a plan: whether a request is refused, and with what, or which
events it will publish, is decided before its first effect (`planSingle`,
`planBatch`, `plan`). `ingestSingle_eq` and `ingestBatch_eq` say each path is its
plan followed by `publishAll`, and `publishAll_returns_iff` is every trace of the
publishing loop: all accepted, or a failure that ends it. The layers above argue
from the plan and that loop.
-/
import CountingSheep.Http.Error
import Mathlib.Data.List.Forall2

namespace CountingSheep.Ingest

open Rust Observability Http
open Theory (Prog Event)
open Theory.Json (Value)

set_option autoImplicit false

/-- What the handler reads of the application's configuration. -/
structure AppState where
  maxBatchEvents : Nat

/-- Header values by lower-case name, in order of arrival. -/
abbrev HeaderMap := List (String × Bytes)

def cloudeventsJson : String := "application/cloudevents+json"
def cloudeventsBatchJson : String := "application/cloudevents-batch+json"

/-- `HeaderValue::to_str`: visible ASCII, space and tab only. -/
def headerToStr (value : Bytes) : Option String :=
  if value.all fun b => (32 ≤ b && b < 127) || b = 9 then
    some (.ofList (value.map fun b => Char.ofNat b.toNat))
  else none

/-- The `?` operator: continue with a value, or halt. -/
def follow {α : Type} (result : Except Halt α) : Handler α := ExceptT.mk (.pure result)

section

variable (crates : Crates)

/-! ## The code -/

/-- Parse a request body as JSON, mapping parse failures to a stable 400. -/
def parseJson (body : Bytes) : Except Halt Value :=
  match crates.fromSlice body with
  | some value => .ok value
  | none => .error (.error (.badRequest "body must be valid JSON"))

/-- What a failed `produce` call becomes. -/
def publishError : ProduceError → AppError
  | .queueFull => .serviceUnavailable "event accepted but publish buffer full; retry shortly"
  | .backend detail => .internal ⟨"kafka backend error: " ++ detail, []⟩

/-- `Producer::produce`. -/
def produce (message : ProducedMessage) : Handler (Except ProduceError Unit) :=
  Handler.perform (.produce message)

/-- The seam: publish an accepted sheep. -/
def recordAccepted (accepted : AcceptedSheep) : Handler Unit := do
  match ← produce (serializeFlattened crates accepted) with
  | .ok () => pure ()
  | .error e => throw (.error (publishError e))

/-- `OffsetDateTime::now_utc()`. -/
def nowUtc : Handler OffsetDateTime := Handler.perform .now

/-- Validate and accept one event. -/
def ingestSingle (body : Bytes) : Handler StatusCode := do
  let value ← follow (parseJson crates body)
  let sheep ← match ← Handler.ofExec (validate crates value) with
    | .ok sheep => pure sheep
    | .error details => throw (.error (.ofDetails details))
  let now ← nowUtc
  let accepted := stamp sheep now
  recordAccepted crates accepted
  return 202

/-- The validation loop, with the events accepted and the failures found so far. -/
def validateEach : Nat → List Value → List Sheep → List ValidationItem →
    Exec (List Sheep × List ValidationItem)
  | _, [], accepted, errors => .ok (accepted, errors)
  | index, event :: events, accepted, errors => do
      match ← validate crates event with
      | .ok sheep => validateEach (index + 1) events (accepted ++ [sheep]) errors
      | .error details =>
          validateEach (index + 1) events accepted (errors ++ details.map (.at index))

/-- The publishing loop: one clock reading for the whole batch. -/
def publishEach (now : OffsetDateTime) : List Sheep → Handler Unit
  | [] => pure ()
  | sheep :: rest => do
      recordAccepted crates (stamp sheep now)
      publishEach now rest

/-- Validate and accept a batch array. Validation is all-or-nothing; publishing
is per event and stops at the first failure. -/
def ingestBatch (body : Bytes) (maxBatchEvents : Nat) : Handler StatusCode := do
  let .array events ← follow (parseJson crates body)
    | throw (.error (.badRequest "batch body must be a JSON array"))
  if events.isEmpty then
    throw (.error (.badRequest "batch must contain at least one event"))
  if events.length > maxBatchEvents then
    throw (.error (.badRequest ("batch has " ++ toString events.length ++
      " events, but the maximum is " ++ toString maxBatchEvents)))
  let (accepted, errors) ← Handler.ofExec (validateEach crates 0 events [] [])
  if !errors.isEmpty then
    throw (.error (.validation errors))
  let now ← nowUtc
  publishEach crates now accepted
  return 202

/-- The media type: the first `Content-Type` up to its parameters, blank when it
is missing or not readable as text. -/
def mediaType (headers : HeaderMap) : List Char :=
  let raw := ((headers.lookup "content-type").bind headerToStr).getD ""
  trim (beforeFirst ';' raw.toList)

/-- Accept usage events, single or batch. -/
def createSheep (state : AppState) (headers : HeaderMap) (body : Bytes) : Handler StatusCode :=
  if eqIgnoreAsciiCase (mediaType headers) cloudeventsJson.toList then
    ingestSingle crates body
  else if eqIgnoreAsciiCase (mediaType headers) cloudeventsBatchJson.toList then
    ingestBatch crates body state.maxBatchEvents
  else
    throw (.error (.unsupportedMediaType
      ("Content-Type must be " ++ cloudeventsJson ++ " or " ++ cloudeventsBatchJson)))

/-! ## The plan: what is decided before the first effect -/

/-- What a validation outcome decides for a single event. -/
def planEvent : Exec (Except (List String) Sheep) → Except Halt (List Sheep)
  | .error panic => .error (.panic panic)
  | .ok (.error details) => .error (.error (.ofDetails details))
  | .ok (.ok sheep) => .ok [sheep]

def planSingle (body : Bytes) : Except Halt (List Sheep) := do
  planEvent (validate crates (← parseJson crates body))

/-- What the validation loop decides for a batch. -/
def planEvents (events : List Value) : Except Halt (List Sheep) :=
  match validateEach crates 0 events [] [] with
  | .error panic => .error (.panic panic)
  | .ok (accepted, errors) =>
      if errors = [] then .ok accepted else .error (.error (.validation errors))

/-- What the shape of a batch body decides, before any event is validated. -/
def batchEvents (maxBatchEvents : Nat) : Value → Except Halt (List Value)
  | .array [] => .error (.error (.badRequest "batch must contain at least one event"))
  | .array events =>
      if events.length > maxBatchEvents then
        .error (.error (.badRequest ("batch has " ++ toString events.length ++
          " events, but the maximum is " ++ toString maxBatchEvents)))
      else .ok events
  | _ => .error (.error (.badRequest "batch body must be a JSON array"))

def planBatch (body : Bytes) (maxBatchEvents : Nat) : Except Halt (List Sheep) := do
  planEvents crates (← batchEvents maxBatchEvents (← parseJson crates body))

/-- Stamp with one clock reading and publish in order. -/
def publishAll (sheeps : List Sheep) : Handler StatusCode := do
  let now ← nowUtc
  publishEach crates now sheeps
  return 202

theorem follow_error {α β : Type} (halt : Halt) (next : α → Handler β) :
    follow (.error halt) >>= next = follow (.error halt) := rfl

theorem follow_ok {α β : Type} (a : α) (next : α → Handler β) :
    follow (.ok a) >>= next = next a := rfl

theorem ingestSingle_eq (body : Bytes) :
    ingestSingle crates body = follow (planSingle crates body) >>= publishAll crates := by
  unfold ingestSingle planSingle
  cases parseJson crates body with
  | error halt => rfl
  | ok value =>
      change Handler.ofExec (validate crates value) >>= _ =
        follow (planEvent (validate crates value)) >>= _
      rcases validate crates value with panic | details | sheep
      · rfl
      · rfl
      · change (nowUtc >>= fun now => recordAccepted crates (stamp sheep now) >>= fun _ =>
          pure 202) = nowUtc >>= fun now => publishEach crates now [sheep] >>= fun _ => pure 202
        simp only [publishEach, bind_assoc, pure_bind]

theorem ingestBatch_eq (body : Bytes) (maxBatchEvents : Nat) :
    ingestBatch crates body maxBatchEvents =
      follow (planBatch crates body maxBatchEvents) >>= publishAll crates := by
  unfold ingestBatch planBatch
  cases parseJson crates body with
  | error halt => rfl
  | ok value =>
      change follow (.ok value) >>= _ = follow (batchEvents maxBatchEvents value >>= _) >>= _
      rw [follow_ok]
      rcases value with _ | _ | _ | _ | events | _
      case array =>
        cases events with
        | nil => rfl
        | cons event rest =>
            by_cases exceeds : (event :: rest).length > maxBatchEvents
            · simp only [batchEvents, exceeds, List.isEmpty_cons, if_true]
              rfl
            · simp only [batchEvents, exceeds, List.isEmpty_cons, if_false]
              change _ = follow (planEvents crates (event :: rest)) >>= _
              unfold planEvents
              rcases validateEach crates 0 (event :: rest) [] [] with panic | ⟨accepted, errors⟩
              · rfl
              · cases errors <;> rfl
      all_goals rfl

/-- Refused, with what, or the events a request will publish. -/
def plan (state : AppState) (headers : HeaderMap) (body : Bytes) : Except Halt (List Sheep) :=
  if eqIgnoreAsciiCase (mediaType headers) cloudeventsJson.toList then
    planSingle crates body
  else if eqIgnoreAsciiCase (mediaType headers) cloudeventsBatchJson.toList then
    planBatch crates body state.maxBatchEvents
  else
    .error (.error (.unsupportedMediaType
      ("Content-Type must be " ++ cloudeventsJson ++ " or " ++ cloudeventsBatchJson)))

/-- The media type selects the batch path. -/
def IsBatch (headers : HeaderMap) : Prop :=
  eqIgnoreAsciiCase (mediaType headers) cloudeventsJson.toList = false ∧
    eqIgnoreAsciiCase (mediaType headers) cloudeventsBatchJson.toList = true

theorem plan_batch {state : AppState} {headers : HeaderMap} {body : Bytes} (media : IsBatch headers) :
    plan crates state headers body = planBatch crates body state.maxBatchEvents := by
  unfold plan
  rw [media.1, media.2]
  rfl

theorem createSheep_eq (state : AppState) (headers : HeaderMap) (body : Bytes) :
    createSheep crates state headers body =
      follow (plan crates state headers body) >>= publishAll crates := by
  unfold createSheep plan
  split
  · exact ingestSingle_eq crates body
  · split
    · exact ingestBatch_eq crates body state.maxBatchEvents
    · rfl

/-! ## The validation loop -/

/-- The verdicts on a batch's events, in order; the first panic ends it. -/
def validations (events : List Value) : Exec (List (Except (List String) Sheep)) :=
  events.mapM (validate crates)

/-- The failures among verdicts, each tagged with its position from `index` on. -/
def indexedErrors : Nat → List (Except (List String) Sheep) → List ValidationItem
  | _, [] => []
  | index, .ok _ :: rest => indexedErrors (index + 1) rest
  | index, .error details :: rest =>
      details.map (.at index) ++ indexedErrors (index + 1) rest

/-- The events among verdicts. -/
def acceptedSheeps (verdicts : List (Except (List String) Sheep)) : List Sheep :=
  verdicts.filterMap Except.toOption

@[simp] theorem acceptedSheeps_ok (sheep : Sheep) (rest : List (Except (List String) Sheep)) :
    acceptedSheeps (.ok sheep :: rest) = sheep :: acceptedSheeps rest := rfl

@[simp] theorem acceptedSheeps_error (details : List String)
    (rest : List (Except (List String) Sheep)) :
    acceptedSheeps (.error details :: rest) = acceptedSheeps rest := rfl

theorem validateEach_eq (index : Nat) (events : List Value) (accepted : List Sheep)
    (errors : List ValidationItem) :
    validateEach crates index events accepted errors = (validations crates events).map fun verdicts =>
      (accepted ++ acceptedSheeps verdicts, errors ++ indexedErrors index verdicts) := by
  induction events generalizing index accepted errors with
  | nil => simp [validateEach, validations, acceptedSheeps, indexedErrors, pure, Except.pure,
      Except.map]
  | cons event rest ih =>
      simp only [validateEach, validations, List.mapM_cons]
      rcases validate crates event with panic | details | sheep
      · rfl
      · change validateEach crates (index + 1) rest accepted _ = _
        rw [ih]
        simp only [validations, bind, Except.bind]
        cases rest.mapM (validate crates) with
        | error panic => rfl
        | ok verdicts => simp [Except.map, pure, Except.pure, indexedErrors]
      · change validateEach crates (index + 1) rest (accepted ++ [sheep]) errors = _
        rw [ih]
        simp only [validations, bind, Except.bind]
        cases rest.mapM (validate crates) with
        | error panic => rfl
        | ok verdicts => simp [Except.map, pure, Except.pure, indexedErrors]

/-- `validate` took `event` for `sheep`. -/
def Accepts (event : Value) (sheep : Sheep) : Prop := validate crates event = .ok (.ok sheep)

theorem planEvents_eq (events : List Value) :
    planEvents crates events = match validations crates events with
      | .error panic => .error (.panic panic)
      | .ok verdicts =>
          if indexedErrors 0 verdicts = [] then .ok (acceptedSheeps verdicts)
          else .error (.error (.validation (indexedErrors 0 verdicts))) := by
  rw [planEvents, validateEach_eq]
  cases validations crates events with
  | error panic => rfl
  | ok verdicts => simp [Except.map]

theorem validations_eq_ok_iff {events : List Value} {verdicts : List (Except (List String) Sheep)} :
    validations crates events = .ok verdicts ↔
      List.Forall₂ (fun event verdict => validate crates event = .ok verdict) events verdicts := by
  induction events generalizing verdicts with
  | nil =>
      simp only [validations, List.mapM_nil, pure, Except.pure, Except.ok.injEq,
        List.forall₂_nil_left_iff]
      exact eq_comm
  | cons event rest ih =>
      simp only [validations, List.mapM_cons, bind, Except.bind] at ih ⊢
      constructor
      · intro mapped
        cases head : validate crates event with
        | error panic => simp [head] at mapped
        | ok verdict =>
            cases tail : rest.mapM (validate crates) with
            | error panic => simp [head, tail] at mapped
            | ok verdicts' =>
                simp only [head, tail, pure, Except.pure, Except.ok.injEq] at mapped
                subst mapped
                exact .cons head (ih.mp tail)
      · intro related
        cases related with
        | cons head tail => simp [head, ih.mpr tail, pure, Except.pure]

/-- No tagged failure means every event was accepted, since no failure is empty. -/
theorem accepts_of_no_errors {index : Nat} {events : List Value}
    {verdicts : List (Except (List String) Sheep)}
    (judged : List.Forall₂ (fun event verdict => validate crates event = .ok verdict) events verdicts)
    (clean : indexedErrors index verdicts = []) :
    List.Forall₂ (Accepts crates) events (acceptedSheeps verdicts) := by
  induction judged generalizing index with
  | nil => exact .nil
  | @cons event verdict rest verdicts head tail ih =>
      cases verdict with
      | ok sheep => exact .cons head (ih clean)
      | error details =>
          have nonempty := validate_rejects_nonempty crates head
          simp only [indexedErrors, List.append_eq_nil_iff, List.map_eq_nil_iff] at clean
          exact absurd clean.1 nonempty

theorem judged_of_accepts (index : Nat) {events : List Value} {sheeps : List Sheep}
    (accepted : List.Forall₂ (Accepts crates) events sheeps) :
    List.Forall₂ (fun event verdict => validate crates event = .ok verdict) events
        (sheeps.map .ok) ∧
      indexedErrors index (sheeps.map .ok) = [] ∧ acceptedSheeps (sheeps.map .ok) = sheeps := by
  induction accepted generalizing index with
  | nil => exact ⟨.nil, rfl, rfl⟩
  | cons head tail ih =>
      obtain ⟨judged, clean, same⟩ := ih (index + 1)
      exact ⟨.cons head judged, clean, congrArg _ same⟩

theorem planEvents_eq_ok_iff {events : List Value} {sheeps : List Sheep} :
    planEvents crates events = .ok sheeps ↔ List.Forall₂ (Accepts crates) events sheeps := by
  rw [planEvents_eq]
  constructor
  · intro planned
    cases verdicts : validations crates events with
    | error panic => simp [verdicts] at planned
    | ok verdicts' =>
        simp only [verdicts] at planned
        split at planned
        · rename_i clean
          cases planned
          exact accepts_of_no_errors crates ((validations_eq_ok_iff crates).mp verdicts) clean
        · cases planned
  · intro accepted
    obtain ⟨judged, clean, same⟩ := judged_of_accepts crates 0 accepted
    rw [(validations_eq_ok_iff crates).mpr judged]
    simp only [clean, same, if_true]

/-! ## What is published -/

theorem parseJson_eq_ok_iff {body : Bytes} {value : Value} :
    parseJson crates body = .ok value ↔ crates.fromSlice body = some value := by
  unfold parseJson
  cases crates.fromSlice body <;> simp

theorem planSingle_eq_ok_iff {body : Bytes} {sheeps : List Sheep} :
    planSingle crates body = .ok sheeps ↔
      ∃ value sheep, crates.fromSlice body = some value ∧ Accepts crates value sheep ∧
        sheeps = [sheep] := by
  unfold planSingle
  constructor
  · intro planned
    cases parsed : parseJson crates body with
    | error halt => simp [parsed, bind, Except.bind] at planned
    | ok value =>
        simp only [parsed, bind, Except.bind] at planned
        have read := (parseJson_eq_ok_iff crates).mp parsed
        rcases judged : validate crates value with panic | details | sheep
        · simp [judged, planEvent] at planned
        · simp [judged, planEvent] at planned
        · simp only [judged, planEvent, Except.ok.injEq] at planned
          exact ⟨value, sheep, read, judged, planned.symm⟩
  · rintro ⟨value, sheep, read, accepted, rfl⟩
    have judged : validate crates value = .ok (.ok sheep) := accepted
    rw [(parseJson_eq_ok_iff crates).mpr read]
    simp only [bind, Except.bind, judged, planEvent]

theorem batchEvents_eq_ok_iff {maxBatchEvents : Nat} {value : Value} {events : List Value} :
    batchEvents maxBatchEvents value = .ok events ↔
      value = .array events ∧ events ≠ [] ∧ events.length ≤ maxBatchEvents := by
  rcases value with _ | _ | _ | _ | elements | _
  case array =>
    cases elements with
    | nil =>
        simp only [batchEvents, reduceCtorEq, Value.array.injEq, false_iff, not_and]
        rintro rfl nonempty
        exact absurd rfl nonempty
    | cons event rest =>
        change (if (event :: rest).length > maxBatchEvents then Except.error _
          else Except.ok (event :: rest)) = _ ↔ _
        split_ifs with exceeds
        · simp only [Value.array.injEq, false_iff, not_and]
          rintro rfl -
          exact Nat.not_le.mpr exceeds
        · simp only [Except.ok.injEq, Value.array.injEq]
          constructor
          · rintro rfl
            exact ⟨rfl, List.cons_ne_nil _ _, Nat.not_lt.mp exceeds⟩
          · rintro ⟨same, -⟩
            exact same
  all_goals simp [batchEvents]

theorem planBatch_eq_ok_iff {body : Bytes} {maxBatchEvents : Nat} {sheeps : List Sheep} :
    planBatch crates body maxBatchEvents = .ok sheeps ↔
      ∃ events, crates.fromSlice body = some (.array events) ∧ events ≠ [] ∧
        events.length ≤ maxBatchEvents ∧ List.Forall₂ (Accepts crates) events sheeps := by
  unfold planBatch
  constructor
  · intro planned
    cases parsed : parseJson crates body with
    | error halt => simp [parsed, bind, Except.bind] at planned
    | ok value =>
        cases shaped : batchEvents maxBatchEvents value with
        | error halt => simp [parsed, shaped, bind, Except.bind] at planned
        | ok events =>
            simp only [parsed, shaped, bind, Except.bind] at planned
            obtain ⟨rfl, nonempty, within⟩ := batchEvents_eq_ok_iff.mp shaped
            exact ⟨events, (parseJson_eq_ok_iff crates).mp parsed, nonempty, within,
              (planEvents_eq_ok_iff crates).mp planned⟩
  · rintro ⟨events, read, nonempty, within, accepted⟩
    have shaped : batchEvents maxBatchEvents (.array events) = .ok events :=
      batchEvents_eq_ok_iff.mpr ⟨rfl, nonempty, within⟩
    rw [(parseJson_eq_ok_iff crates).mpr read]
    simp only [bind, Except.bind, shaped, (planEvents_eq_ok_iff crates).mpr accepted]

/-- The events a request carries, as far as its body can be read: none when its
media type is neither, or the body is not JSON, or a batch is not an array. -/
def requestEvents (headers : HeaderMap) (body : Bytes) : List Value :=
  if eqIgnoreAsciiCase (mediaType headers) cloudeventsJson.toList then
    (crates.fromSlice body).toList
  else if eqIgnoreAsciiCase (mediaType headers) cloudeventsBatchJson.toList then
    match crates.fromSlice body with
    | some (.array events) => events
    | _ => []
  else []

/-- A request is only planned for publication whole, and with something in it. -/
theorem plan_accepts {state : AppState} {headers : HeaderMap} {body : Bytes} {sheeps : List Sheep}
    (planned : plan crates state headers body = .ok sheeps) :
    List.Forall₂ (Accepts crates) (requestEvents crates headers body) sheeps ∧ sheeps ≠ [] := by
  unfold plan at planned
  unfold requestEvents
  split_ifs at planned ⊢
  · obtain ⟨value, sheep, read, accepted, rfl⟩ := (planSingle_eq_ok_iff crates).mp planned
    rw [read]
    exact ⟨.cons accepted .nil, List.cons_ne_nil _ _⟩
  · obtain ⟨events, read, nonempty, -, accepted⟩ := (planBatch_eq_ok_iff crates).mp planned
    rw [read]
    refine ⟨accepted, ?_⟩
    rintro rfl
    exact nonempty (List.forall₂_nil_right_iff.mp accepted)

/-! ## What is refused -/

theorem parseJson_eq_error_iff {body : Bytes} {halt : Halt} :
    parseJson crates body = .error halt ↔
      crates.fromSlice body = none ∧ halt = .error (.badRequest "body must be valid JSON") := by
  unfold parseJson
  cases crates.fromSlice body <;> simp [eq_comm]

theorem planSingle_eq_error_iff {body : Bytes} {halt : Halt} :
    planSingle crates body = .error halt ↔
      (crates.fromSlice body = none ∧ halt = .error (.badRequest "body must be valid JSON")) ∨
      ∃ value, crates.fromSlice body = some value ∧
        ((∃ details, validate crates value = .ok (.error details) ∧
            halt = .error (.ofDetails details)) ∨
          ∃ panic, validate crates value = .error panic ∧ halt = .panic panic) := by
  unfold planSingle
  cases read : crates.fromSlice body with
  | none =>
      have parsed := (parseJson_eq_error_iff crates).mpr ⟨read, rfl⟩
      simp [parsed, bind, Except.bind, eq_comm]
  | some value =>
      have parsed := (parseJson_eq_ok_iff crates).mpr read
      rcases judged : validate crates value with panic | details | sheep <;>
        simp [parsed, judged, bind, Except.bind, planEvent, eq_comm]

/-- What the shape of a batch body can be refused with. -/
theorem batchEvents_eq_error {maxBatchEvents : Nat} {value : Value} {halt : Halt}
    (refused : batchEvents maxBatchEvents value = .error halt) :
    ∃ message, halt = .error (.badRequest message) := by
  rcases value with _ | _ | _ | _ | elements | _
  case array =>
    cases elements with
    | nil =>
        cases refused
        exact ⟨_, rfl⟩
    | cons event rest =>
        change (if (event :: rest).length > maxBatchEvents then Except.error _
          else Except.ok (event :: rest)) = _ at refused
        split_ifs at refused
        cases refused
        exact ⟨_, rfl⟩
  all_goals
    cases refused
    exact ⟨_, rfl⟩

theorem planEvents_eq_error_iff {events : List Value} {halt : Halt} :
    planEvents crates events = .error halt ↔
      (∃ panic, validations crates events = .error panic ∧ halt = .panic panic) ∨
      ∃ verdicts, validations crates events = .ok verdicts ∧ indexedErrors 0 verdicts ≠ [] ∧
        halt = .error (.validation (indexedErrors 0 verdicts)) := by
  rw [planEvents_eq]
  cases validations crates events with
  | error panic =>
      simp only [Except.error.injEq, reduceCtorEq, false_and, exists_false, or_false,
        exists_eq_left']
      exact eq_comm
  | ok verdicts =>
      by_cases clean : indexedErrors 0 verdicts = []
      · simp [clean]
      · simp only [clean, if_false, Except.error.injEq, Except.ok.injEq, reduceCtorEq, false_and,
          exists_false, false_or, exists_eq_left', ne_eq, not_false_eq_true, true_and]
        exact eq_comm

theorem planBatch_eq_error_iff {body : Bytes} {maxBatchEvents : Nat} {halt : Halt} :
    planBatch crates body maxBatchEvents = .error halt ↔
      (crates.fromSlice body = none ∧ halt = .error (.badRequest "body must be valid JSON")) ∨
      ∃ value, crates.fromSlice body = some value ∧
        (batchEvents maxBatchEvents value = .error halt ∨
          ∃ events, batchEvents maxBatchEvents value = .ok events ∧
            planEvents crates events = .error halt) := by
  unfold planBatch
  cases read : crates.fromSlice body with
  | none =>
      have parsed := (parseJson_eq_error_iff crates).mpr ⟨read, rfl⟩
      simp [parsed, bind, Except.bind, eq_comm]
  | some value =>
      have parsed := (parseJson_eq_ok_iff crates).mpr read
      cases shaped : batchEvents maxBatchEvents value <;>
        simp [parsed, shaped, bind, Except.bind]

/-- An error a request can be refused with before it publishes anything. -/
inductive Refusal : AppError → Prop where
  | badRequest (message : String) : Refusal (.badRequest message)
  | validation {items : List ValidationItem} (some_item : items ≠ []) : Refusal (.validation items)
  | unsupportedMediaType (message : String) : Refusal (.unsupportedMediaType message)

theorem plan_refusal {state : AppState} {headers : HeaderMap} {body : Bytes} {e : AppError}
    (planned : plan crates state headers body = .error (.error e)) : Refusal e := by
  unfold plan at planned
  split_ifs at planned
  · rcases (planSingle_eq_error_iff crates).mp planned with
      ⟨-, ⟨⟩⟩ | ⟨value, -, ⟨details, rejected, ⟨⟩⟩ | ⟨panic, -, ⟨⟩⟩⟩
    · exact .badRequest _
    · have nonempty := validate_rejects_nonempty crates rejected
      exact .validation (by simpa using nonempty)
  · rcases (planBatch_eq_error_iff crates).mp planned with
      ⟨-, ⟨⟩⟩ | ⟨value, -, shaped | ⟨events, -, judged⟩⟩
    · exact .badRequest _
    · obtain ⟨message, ⟨⟩⟩ := batchEvents_eq_error shaped
      exact .badRequest message
    · rcases (planEvents_eq_error_iff crates).mp judged with
        ⟨panic, -, ⟨⟩⟩ | ⟨verdicts, -, nonempty, ⟨⟩⟩
      exact .validation nonempty
  · cases planned
    exact .unsupportedMediaType _

/-- A refusal is a client error, and is not reported. -/
theorem Refusal.client_error {e : AppError} (refusal : Refusal e) :
    400 ≤ e.rendered.status ∧ e.rendered.status < 500 ∧ e.reports = [] := by
  cases refusal with
  | badRequest message => exact ⟨show 400 ≤ 400 by decide, show 400 < 500 by decide, rfl⟩
  | validation some_item => exact ⟨show 400 ≤ 400 by decide, show 400 < 500 by decide, rfl⟩
  | unsupportedMediaType message => exact ⟨show 400 ≤ 415 by decide, show 415 < 500 by decide, rfl⟩

/-! ## The publishing loop -/

theorem publishError_status (e : ProduceError) :
    ((publishError e).rendered.status = 503 ↔ e = .queueFull) ∧
      ((publishError e).rendered.status = 500 ↔ ∃ detail, e = .backend detail) ∧
      (publishError e).rendered.status ≠ 202 ∧ 500 ≤ (publishError e).rendered.status := by
  cases e with
  | queueFull =>
      have status : (publishError .queueFull).rendered.status = 503 := rfl
      simp [status]
  | backend detail =>
      have status : (publishError (.backend detail)).rendered.status = 500 := rfl
      simp [status]

/-- A `produce` call for `sheep` at `now`, and its answer. -/
abbrev produced (now : OffsetDateTime) (sheep : Sheep) (answer : Except ProduceError Unit) :
    Event Effect Effect.Answer := ⟨.produce (messageAt crates now sheep), answer⟩

theorem produce_returns_iff {message : ProducedMessage} {events : List (Event Effect Effect.Answer)}
    {out : Except Halt (Except ProduceError Unit)} :
    Prog.Returns (produce message).run events out ↔
      ∃ answer : Except ProduceError Unit, events = [⟨.produce message, answer⟩] ∧
        out = .ok answer :=
  Handler.perform_returns_iff

theorem nowUtc_returns_iff {events : List (Event Effect Effect.Answer)}
    {out : Except Halt OffsetDateTime} :
    Prog.Returns nowUtc.run events out ↔
      ∃ now : OffsetDateTime, events = [⟨.now, now⟩] ∧ out = .ok now :=
  Handler.perform_returns_iff

/-- How a `produce` answer ends `recordAccepted`. -/
def publishOutcome : Except ProduceError Unit → Except Halt Unit
  | .ok () => .ok ()
  | .error e => .error (.error (publishError e))

theorem recordAccepted_returns_iff {accepted : AcceptedSheep}
    {events : List (Event Effect Effect.Answer)} {out : Except Halt Unit} :
    Prog.Returns (recordAccepted crates accepted).run events out ↔
      ∃ answer : Except ProduceError Unit,
        events = [⟨.produce (serializeFlattened crates accepted), answer⟩] ∧
          out = publishOutcome answer := by
  unfold recordAccepted
  rw [Prog.bindE_returns_iff]
  simp only [produce_returns_iff]
  constructor
  · rintro (⟨stop, -, _, -, impossible⟩ | ⟨_, later, answer, rfl, ⟨_, rfl, ⟨⟩⟩, after⟩)
    · cases impossible
    · rcases answer with e | ⟨⟩
      · obtain ⟨rfl, rfl⟩ := Prog.throw_returns_iff.mp after
        exact ⟨.error e, rfl, rfl⟩
      · obtain ⟨rfl, rfl⟩ := Prog.pureE_returns_iff.mp after
        exact ⟨.ok (), rfl, rfl⟩
  · rintro ⟨answer, rfl, rfl⟩
    refine .inr ⟨_, [], answer, by simp, ⟨answer, rfl, rfl⟩, ?_⟩
    rcases answer with e | ⟨⟩
    · exact Prog.throw_returns_iff.mpr ⟨rfl, rfl⟩
    · exact Prog.pureE_returns_iff.mpr ⟨rfl, rfl⟩

/-- Every trace of the publishing loop: each event accepted, or accepted up to
the first one that is not. -/
theorem publishEach_returns_iff {now : OffsetDateTime} {sheeps : List Sheep}
    {events : List (Event Effect Effect.Answer)} {out : Except Halt Unit} :
    Prog.Returns (publishEach crates now sheeps).run events out ↔
      (out = .ok () ∧ events = sheeps.map fun sheep => produced crates now sheep (.ok ())) ∨
      ∃ done sheep rest e, sheeps = done ++ sheep :: rest ∧
        out = .error (.error (publishError e)) ∧
        events = (done.map fun sheep => produced crates now sheep (.ok ())) ++
          [produced crates now sheep (.error e)] := by
  induction sheeps generalizing events with
  | nil =>
      rw [publishEach, Prog.pureE_returns_iff]
      simp [and_comm]
  | cons sheep rest ih =>
      rw [publishEach, Prog.bindE_returns_iff]
      simp only [recordAccepted_returns_iff, ih]
      constructor
      · rintro (⟨stop, rfl, answer, rfl, stopped⟩ | ⟨_, later, _, rfl, ⟨answer, rfl, went⟩, after⟩)
        · rcases answer with e | ⟨⟩
          · cases stopped
            exact .inr ⟨[], sheep, rest, e, rfl, rfl, rfl⟩
          · cases stopped
        · rcases answer with e | ⟨⟩
          · cases went
          · rcases after with ⟨rfl, rfl⟩ | ⟨done, failed, rest', e, rfl, rfl, rfl⟩
            · exact .inl ⟨rfl, rfl⟩
            · exact .inr ⟨sheep :: done, failed, rest', e, rfl, rfl, by simp⟩
      · rintro (⟨rfl, rfl⟩ | ⟨done, failed, rest', e, split, rfl, rfl⟩)
        · exact .inr ⟨_, _, (), rfl, ⟨.ok (), rfl, rfl⟩, .inl ⟨rfl, rfl⟩⟩
        · cases done with
          | nil =>
              cases split
              exact .inl ⟨_, rfl, .error e, rfl, rfl⟩
          | cons first done =>
              cases split
              exact .inr ⟨[produced crates now sheep (.ok ())], _, (), rfl, ⟨.ok (), rfl, rfl⟩,
                .inr ⟨done, failed, rest', e, rfl, rfl, rfl⟩⟩

/-- Every trace of `publishAll`: the clock, then the loop. -/
theorem publishAll_returns_iff {sheeps : List Sheep} {events : List (Event Effect Effect.Answer)}
    {out : Except Halt StatusCode} :
    Prog.Returns (publishAll crates sheeps).run events out ↔
      ∃ (now : OffsetDateTime) (calls : List (Event Effect Effect.Answer)) (end_ : Except Halt Unit),
        events = ⟨.now, now⟩ :: calls ∧
        Prog.Returns (publishEach crates now sheeps).run calls end_ ∧
        out = end_.map fun _ => 202 := by
  unfold publishAll
  simp only [Prog.bindE_returns_iff, nowUtc_returns_iff, Prog.pureE_returns_iff]
  constructor
  · rintro (⟨stop, -, _, -, impossible⟩ | ⟨_, later, now, rfl, ⟨_, rfl, ⟨⟩⟩, after⟩)
    · cases impossible
    · rcases after with ⟨stop, rfl, stopped⟩ | ⟨calls, _, ⟨⟩, rfl, published, rfl, rfl⟩
      · exact ⟨now, later, .error stop, rfl, stopped, rfl⟩
      · exact ⟨now, calls, .ok (), by simp, published, rfl⟩
  · rintro ⟨now, calls, end_, rfl, published, rfl⟩
    refine .inr ⟨[⟨.now, now⟩], calls, now, rfl, ⟨now, rfl, rfl⟩, ?_⟩
    rcases end_ with stop | ⟨⟩
    · exact .inl ⟨stop, rfl, published⟩
    · exact .inr ⟨calls, [], (), by simp, published, rfl, rfl⟩

/-- Every trace of a plan followed by its publication. -/
theorem planned_returns_iff {planned : Except Halt (List Sheep)}
    {trace : List (Event Effect Effect.Answer)} {out : Except Halt StatusCode} :
    Prog.Returns (follow planned >>= publishAll crates).run trace out ↔
      (∃ halt, planned = .error halt ∧ trace = [] ∧ out = .error halt) ∨
      ∃ sheeps, planned = .ok sheeps ∧ Prog.Returns (publishAll crates sheeps).run trace out := by
  cases planned with
  | error halt =>
      rw [follow_error]
      simp [follow, ExceptT.run, ExceptT.mk]
  | ok sheeps => simp [follow_ok]

end

end CountingSheep.Ingest
