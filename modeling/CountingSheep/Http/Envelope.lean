/-
# CountingSheep.Http.Envelope — what a refused request is answered with

Errors are meant to be a JSON object `{"errors": [...]}` with at least one entry,
each with a `detail`, and with an `index` exactly for the failures of a batch's
events (`Enveloped`). `AppError.rendered` does that for every error a request can
reach; the answers from elsewhere are those of the ingestion route's body extractor.

* `plan_enveloped`: the refusals decided by the handler.
* `ends_well_answered`: the ways a submission with a buffered body can go.
* `answered_iff`: the envelope is kept exactly by the bodies that the extractor buffers.
-/
import CountingSheep.Http.Router
import CountingSheep.Ingest.Totality

namespace CountingSheep.Http

open Rust Ingest
open Theory (Prog Event)
open Theory.Json (Value lookup_insert)

set_option autoImplicit false

/-! ## The envelope -/

/-- An entry of the error list: a string `detail`, and an integer `index` exactly when
`indexed`. -/
def ErrorItem (indexed : Prop) (item : Value) : Prop :=
  ∃ members, item = .object members ∧ (∃ s, members.lookup "detail" = some (.string s)) ∧
    (members.lookup "index" ≠ none ↔ indexed) ∧
    ∀ v, members.lookup "index" = some v → ∃ n : Nat, v = .number (.int n)

/-- The application's error body. -/
def Enveloped (indexed : Prop) (body : Body) : Prop :=
  ∃ items, body = .json (.object [("errors", .array items)]) ∧ items ≠ [] ∧
    ∀ item ∈ items, ErrorItem indexed item

theorem detail_item (message : String) : ErrorItem False (AppError.detail message) := by
  refine ⟨[("detail", .string message)], rfl, ⟨message, rfl⟩, ?_, ?_⟩
  · simp [List.lookup]
  · intro v found
    simp [List.lookup] at found

theorem renderValidationItem_item (item : ValidationItem) :
    ErrorItem (item.index ≠ none) (AppError.renderValidationItem item) := by
  obtain ⟨index, detail⟩ := item
  cases index with
  | none =>
      obtain ⟨members, same, named, indexed, integer⟩ := detail_item detail
      exact ⟨members, same, named, by simpa using indexed, integer⟩
  | some index =>
      refine ⟨_, rfl, ⟨detail, ?_⟩, ?_, ?_⟩
      · simp [lookup_insert]
      · simp [lookup_insert]
      · intro v found
        simp only [List.foldl_cons, List.foldl_nil, lookup_insert, List.lookup_nil] at found
        exact ⟨index, by simpa using found.symm⟩

theorem enveloped_single {error : AppError} {message : String}
    (one : error.statusAndErrors.2 = [AppError.detail message]) : Enveloped False error.rendered.body := by
  refine ⟨_, rfl, by rw [one]; exact List.cons_ne_nil _ _, ?_⟩
  intro item member
  rw [one, List.mem_singleton] at member
  rw [member]
  exact detail_item message

theorem enveloped_validation {items : List ValidationItem} {indexed : Prop} (some_item : items ≠ [])
    (uniform : ∀ item ∈ items, item.index ≠ none ↔ indexed) :
    Enveloped indexed (AppError.validation items).rendered.body := by
  refine ⟨_, rfl, by simpa [AppError.statusAndErrors] using some_item, ?_⟩
  intro item member
  obtain ⟨source, inside, rfl⟩ := List.mem_map.mp member
  have shape := renderValidationItem_item source
  rwa [propext (uniform source inside)] at shape

theorem Enveloped.congr {p q : Prop} {body : Body} (same : p ↔ q) (enveloped : Enveloped p body) :
    Enveloped q body := propext same ▸ enveloped

/-! ## What the handler refuses -/

section Plan

variable {crates : Crates} {state : AppState} {headers : HeaderMap} {body : Bytes}

/-- The body is a batch within the cap, and one of its events is invalid. -/
def InvalidBatch (crates : Crates) (state : AppState) (headers : HeaderMap) (body : Bytes) : Prop :=
  IsBatch headers ∧ ∃ events, BatchOf crates body state.maxBatchEvents events ∧
    ∃ event ∈ events, ∃ details, validate crates event = .ok (.error details)

theorem not_invalidBatch_of_plan {sheeps : List Sheep}
    (planned : plan crates state headers body = .ok sheeps) :
    ¬ InvalidBatch crates state headers body := by
  intro invalid
  obtain ⟨media, events, ⟨read, -⟩, event, member, details, rejected⟩ := invalid
  rw [plan_batch crates media] at planned
  obtain ⟨events', read', -, -, accepted⟩ := (planBatch_eq_ok_iff crates).mp planned
  rw [read] at read'
  cases read'
  obtain ⟨sheep, -, taken⟩ := Theory.related_of_mem accepted member
  have taken : validate crates event = .ok (.ok sheep) := taken
  rw [taken] at rejected
  cases rejected

/-- The batch path: an `index` on every entry, or on none. -/
theorem planBatch_enveloped (media : IsBatch headers) {e : AppError}
    (refused : planBatch crates body state.maxBatchEvents = .error (.error e)) :
    Enveloped (InvalidBatch crates state headers body) e.rendered.body := by
  rcases (planBatch_eq_error_iff crates).mp refused with
    ⟨unread, ⟨⟩⟩ | ⟨value, read, shaped | ⟨events, shaped, judged⟩⟩
  · apply (enveloped_single rfl).congr
    rw [false_iff]
    intro invalid
    obtain ⟨-, events, ⟨read, -⟩, -⟩ := invalid
    rw [unread] at read
    cases read
  · obtain ⟨message, ⟨⟩⟩ := batchEvents_eq_error shaped
    apply (enveloped_single rfl).congr
    rw [false_iff]
    intro invalid
    obtain ⟨-, events, ⟨read', nonempty, within⟩, -⟩ := invalid
    rw [read] at read'
    cases read'
    rw [batchEvents_eq_ok_iff.mpr ⟨rfl, nonempty, within⟩] at shaped
    cases shaped
  · obtain ⟨rfl, nonempty, within⟩ := batchEvents_eq_ok_iff.mp shaped
    rcases (planEvents_eq_error_iff crates).mp judged with
      ⟨panic, -, ⟨⟩⟩ | ⟨verdicts, validated, some_item, ⟨⟩⟩
    obtain ⟨first, member⟩ := List.exists_mem_of_ne_nil _ some_item
    obtain ⟨i, event, details, -, at_i, rejected, -⟩ := indexedErrors_names validated member
    have invalid : InvalidBatch crates state headers body :=
      ⟨media, events, ⟨read, nonempty, within⟩, event, List.mem_of_getElem? at_i, details, rejected⟩
    apply enveloped_validation some_item
    intro item inside
    obtain ⟨i, -, -, place, -⟩ := indexedErrors_names validated inside
    exact iff_of_true (by rw [place]; exact Option.some_ne_none i) invalid

/-- **Every refusal of the handler is enveloped.** -/
theorem plan_enveloped {e : AppError} (planned : plan crates state headers body = .error (.error e)) :
    Enveloped (InvalidBatch crates state headers body) e.rendered.body := by
  by_cases batch : IsBatch headers
  · rw [plan_batch crates batch] at planned
    exact planBatch_enveloped batch planned
  · have notInvalid : False ↔ InvalidBatch crates state headers body :=
      iff_of_false id fun invalid => batch invalid.1
    unfold plan at planned
    by_cases single : eqIgnoreAsciiCase (mediaType headers) cloudeventsJson.toList = true
    · rw [if_pos single] at planned
      rcases (planSingle_eq_error_iff crates).mp planned with
        ⟨-, ⟨⟩⟩ | ⟨value, -, ⟨details, rejected, ⟨⟩⟩ | ⟨panic, -, ⟨⟩⟩⟩
      · exact (enveloped_single rfl).congr notInvalid
      · have nonempty := validate_rejects_nonempty crates rejected
        apply Enveloped.congr notInvalid
        apply enveloped_validation (by simpa using nonempty)
        intro item member
        obtain ⟨detail, -, rfl⟩ := List.mem_map.mp member
        simp [ValidationItem.ofString]
    · have other : ¬ eqIgnoreAsciiCase (mediaType headers) cloudeventsBatchJson.toList = true :=
        fun media => batch ⟨Bool.eq_false_iff.mpr single, media⟩
      rw [if_neg single, if_neg other] at planned
      cases planned
      exact (enveloped_single rfl).congr notInvalid

end Plan

/-! ## What the router answers -/

section Router

variable {crates : Crates} {state : AppState} {request : Request}
  {trace : List (Event Effect Effect.Answer)} {response : Response}

/-- A success: the health check, or a submission accepted with an empty body. -/
def Succeeds (request : Request) (response : Response) : Prop :=
  (request.method = .get ∧ request.path = "/health" ∧ response.status = 200) ∨
    (Submits request ∧ response.status = 202 ∧ response.body = .empty)

/-- A success, or an error in the application's envelope. -/
def WellAnswered (crates : Crates) (state : AppState) (request : Request) (response : Response) :
    Prop :=
  Succeeds request response ∨
    (400 ≤ response.status ∧
      Enveloped (Submits request ∧ ∃ body, request.body = .whole body ∧
        InvalidBatch crates state request.headers body) response.body)

/-- A submission whose body does not arrive whole within the default limit. -/
def Unbuffered (request : Request) : Prop :=
  Submits request ∧ ¬ ∃ body, request.body = .whole body ∧ body.length ≤ 2097152

/-- The condition is the extractor's: it buffers every other submission. -/
theorem not_unbuffered_iff (submits : Submits request) :
    ¬ Unbuffered request ↔ ∃ body, bufferBody request.body = .ok body := by
  simp only [Unbuffered, submits, true_and, not_not, bufferBody_eq_ok_iff, defaultBodyLimit]

theorem invalidBatch_buffered_iff {body : Bytes} (submits : Submits request)
    (buffered : bufferBody request.body = .ok body) :
    (Submits request ∧ ∃ body, request.body = .whole body ∧
        InvalidBatch crates state request.headers body) ↔
      InvalidBatch crates state request.headers body := by
  obtain ⟨whole, -⟩ := bufferBody_eq_ok_iff.mp buffered
  constructor
  · rintro ⟨-, sent, whole', invalid⟩
    rw [whole] at whole'
    cases whole'
    exact invalid
  · intro invalid
    exact ⟨submits, body, whole, invalid⟩

/-- Every rejection is in plain text. -/
theorem rejection_not_well (submits : Submits request) (rejection : Rejection) :
    ¬ WellAnswered crates state request (rejection.response crates) := by
  intro well
  rcases well with (⟨get, -, -⟩ | ⟨-, status, -⟩) | ⟨-, items, body, -⟩
  · rw [submits.1] at get
    cases get
  · exact (rejection.status crates).1 status
  · cases rejection <;> cases body

theorem ends_well_answered (submits : Submits request)
    (short : ¬ Unbuffered request)
    (ending : Ends crates state request.headers request.body trace (.ok response)) :
    WellAnswered crates state request response := by
  cases ending with
  | rejected unbuffered =>
      obtain ⟨body, buffered⟩ := (not_unbuffered_iff submits).mp short
      rw [unbuffered] at buffered
      cases buffered
  | refused buffered planned =>
      have refusal := (plan_refusal crates planned).client_error
      exact .inr ⟨refusal.1,
        (plan_enveloped planned).congr (invalidBatch_buffered_iff submits buffered).symm⟩
  | published _ planned now => exact .inl (.inr ⟨submits, rfl, rfl⟩)
  | @failed _ buffered done rest sheep planned now e =>
      have valid := not_invalidBatch_of_plan planned
      have status := (publishError_status e).2.2.2
      refine .inr ⟨by omega, ?_⟩
      apply Enveloped.congr
        (iff_of_false id fun both => valid ((invalidBatch_buffered_iff submits buffered).mp both))
      cases e with
      | queueFull => exact enveloped_single rfl
      | backend detail => exact enveloped_single rfl

/-- **The error envelope is kept exactly by the bodies that arrive whole and within the
limit.** -/
theorem answered_iff (crates : Crates) (state : AppState) {request : Request}
    (notHead : request.method ≠ .head) {trace : List (Event Effect Effect.Answer)}
    {response : Response}
    (answered : Prog.Returns (buildAxumRouter crates state request) trace (.ok response)) :
    WellAnswered crates state request response ↔ ¬ Unbuffered request := by
  constructor
  · intro well unbuffered
    have submits := unbuffered.1
    rcases router_returns answered with ⟨_, -, -, elsewhere⟩ | ⟨-, ending⟩
    · exact elsewhere.not_submits submits
    · cases ending with
      | @rejected rejection _ => exact rejection_not_well submits rejection well
      | refused buffered _ | published buffered _ _ | failed buffered _ _ _ =>
          exact (not_unbuffered_iff submits).mpr ⟨_, buffered⟩ unbuffered
  · intro short
    rcases router_returns answered with ⟨_, same, -, elsewhere⟩ | ⟨submits, ending⟩
    · cases same
      have unindexed : ∀ p, False ↔ Submits request ∧ p := fun p =>
        iff_of_false id fun both => elsewhere.not_submits both.1
      cases elsewhere with
      | health path get => exact .inl (.inl ⟨get, path, rfl⟩)
      | headHealth path head => exact absurd head notHead
      | notFound other =>
          exact .inr ⟨show 400 ≤ 404 by decide, (enveloped_single rfl).congr (unindexed _)⟩
      | methodNotAllowed other =>
          exact .inr ⟨show 400 ≤ 405 by decide, (enveloped_single rfl).congr (unindexed _)⟩
    · exact ends_well_answered submits short ending

end Router

/-- A submission without a media type keeps the envelope. -/
theorem answered_iff_untyped : WellAnswered reference ⟨100⟩ (sheepsRequest [] (.whole []))
    (AppError.unsupportedMediaType ("Content-Type must be " ++ cloudeventsJson ++ " or " ++
      cloudeventsBatchJson)).rendered := by
  have planned : plan reference ⟨100⟩ [] [] = .error (.error (.unsupportedMediaType
      ("Content-Type must be " ++ cloudeventsJson ++ " or " ++ cloudeventsBatchJson))) := rfl
  have buffered : bufferBody (.whole []) = .ok [] := bufferBody_whole (by decide)
  have refused := sheepsRoute_returns_iff.mpr (Ends.refused buffered planned)
  exact (answered_iff reference ⟨100⟩ (by decide) refused).mpr
    ((not_unbuffered_iff ⟨rfl, rfl⟩).mpr ⟨[], buffered⟩)

/-- One byte over the limit, or a body that breaks off: plain text instead of the
envelope. -/
theorem unbuffered_plain_text :
    (Prog.Returns (buildAxumRouter reference ⟨100⟩
          (sheepsRequest [] (.whole (List.replicate 2097153 32)))) []
        (.ok (textResponse 413 reference.lengthLimitText)) ∧
      ¬ WellAnswered reference ⟨100⟩ (sheepsRequest [] (.whole (List.replicate 2097153 32)))
        (textResponse 413 reference.lengthLimitText)) ∧
    Prog.Returns (buildAxumRouter reference ⟨100⟩ (sheepsRequest [] (.broken [] "connection reset"))) []
        (.ok (textResponse 400 (reference.unknownBodyText "connection reset"))) ∧
      ¬ WellAnswered reference ⟨100⟩ (sheepsRequest [] (.broken [] "connection reset"))
        (textResponse 400 (reference.unknownBodyText "connection reset")) := by
  have exceeds : bufferBody (.whole (List.replicate 2097153 32)) = .error .lengthLimit := by
    apply bufferBody_exceeding
    rw [Incoming.arrived, List.length_replicate]
    decide
  have broken := @bufferBody_broken [] (by decide) "connection reset"
  exact ⟨⟨sheepsRoute_returns_iff.mpr (.rejected exceeds), rejection_not_well ⟨rfl, rfl⟩ .lengthLimit⟩,
    sheepsRoute_returns_iff.mpr (.rejected broken),
    rejection_not_well ⟨rfl, rfl⟩ (.unknownBody "connection reset")⟩

end CountingSheep.Http
