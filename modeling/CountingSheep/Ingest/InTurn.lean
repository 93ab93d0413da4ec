/-
# CountingSheep.Ingest.InTurn — a batch is its events ingested one after another

Two separately written paths against one deterministic producer and one clock. A
batch with a rejected event is answered with the details that the single path gives
for each event, each beside the event's position, and calls nothing; any other batch
makes the calls, reaches the state and ends with the result of submitting its events
singly, in turn, until one is not accepted (`batch_in_turn`).

The publishing loop is simulated step by step: `sending` is what a list of messages
does to a producer, `interp_publishEach` is the loop as `sending`, and
`inTurn_accepted` is the singles as the same `sending`.
-/
import CountingSheep.Ingest.Queue
import CountingSheep.Ingest.Totality

namespace CountingSheep.Ingest

open Rust Http
open Theory (Prog Event related_of_mem)
open Theory.Json (Value Canonical)

set_option autoImplicit false

/-! ## One producer, one clock -/

/-- A producer as a state machine. -/
abbrev Producer (σ : Type) := ProducedMessage → σ → Except ProduceError Unit × σ

section Machine

variable {σ : Type} (producer : Producer σ) (now : OffsetDateTime)

/-- Every effect answered by the producer's state and a fixed clock. -/
def machine : (effect : Effect) → σ → effect.Answer × σ
  | .now, s => (now, s)
  | .produce message, s => producer message s
  | .report _, s => ((), s)

/-- Send messages one by one until one is not accepted. -/
def sending : List ProducedMessage → σ → Except ProduceError Unit × List Call × σ
  | [], s => (.ok (), [], s)
  | message :: rest, s =>
      match producer message s with
      | (.ok (), s') =>
          let (ended, made, final) := sending rest s'
          (ended, (message, .ok ()) :: made, final)
      | (.error e, s') => (.error e, [(message, .error e)], s')

/-- A handler run to its end: its result, its `produce` calls with their outcomes,
and the producer's state. -/
def outcome (handler : Handler StatusCode) (s : σ) : Except Halt StatusCode × List Call × σ :=
  let run := handler.run.interp (machine producer now) s
  (run.1, calls run.2.1, run.2.2)

end Machine

/-- The response a handler's result becomes. -/
def responseOf : Except Halt StatusCode → Response
  | .ok status => ⟨status, [], .empty⟩
  | .error (.error e) => e.rendered
  | .error (.panic _) => servicePanicked

/-- The details of the failures a result lists, in order. -/
def detailsOf : Except Halt StatusCode → List String
  | .error (.error (.validation items)) => items.map fun item => item.detail
  | _ => []

section InTurn

variable {σ : Type} (crates : Crates) (producer : Producer σ) (now : OffsetDateTime)

/-- Submit bodies singly, in order, until one is not answered 202; the last result
stands. -/
def inTurn (last : Except Halt StatusCode) : List Bytes → σ → Except Halt StatusCode × List Call × σ
  | [], s => (last, [], s)
  | body :: rest, s =>
      let (result, made, s') := outcome producer now (ingestSingle crates body) s
      if (responseOf result).status = 202 then
        let (ended, more, final) := inTurn result rest s'
        (ended, made ++ more, final)
      else (result, made, s')

/-- The details of each body on its own, each beside the body's position from `index`
on. -/
def taggedDetails (index : Nat) (bodies : List Bytes) (s : σ) : List (Nat × String) :=
  (bodies.zipIdx index).flatMap fun entry =>
    (detailsOf (outcome producer now (ingestSingle crates entry.1) s).1).map fun detail =>
      (entry.2, detail)

end InTurn

/-! ## The publishing loop as `sending` -/

section Loop

variable {σ : Type} {crates : Crates} {producer : Producer σ} {now : OffsetDateTime}

theorem recordAccepted_run (accepted : AcceptedSheep) :
    (recordAccepted crates accepted).run = Prog.op (Effect.produce (serializeFlattened crates accepted))
      fun answer => .pure (publishOutcome answer) := by
  change Prog.op (Effect.produce (serializeFlattened crates accepted)) _ = _
  congr 1
  funext answer
  rcases answer with e | ⟨⟩ <;> rfl

/-- What a finished loop makes of the whole request. -/
def sent : Except ProduceError Unit → Except Halt StatusCode
  | .ok () => .ok 202
  | .error e => .error (.error (publishError e))

theorem sent_status (ended : Except ProduceError Unit) :
    (responseOf (sent ended)).status ≠ 400 ∧
      ((responseOf (sent ended)).status = 202 ↔ ended = .ok ()) := by
  rcases ended with e | ⟨⟩
  · obtain ⟨-, -, notAccepted, server⟩ := publishError_status e
    have rendered : responseOf (sent (.error e)) = (publishError e).rendered := rfl
    rw [rendered]
    refine ⟨by omega, fun accepted => absurd accepted notAccepted, ?_⟩
    rintro ⟨⟩
  · exact ⟨show 202 ≠ 400 by decide, fun _ => rfl, fun _ => rfl⟩

theorem interp_publishEach (sheeps : List Sheep) (s : σ) :
    let run := (publishEach crates now sheeps).run.interp (machine producer now) s
    let loop := sending producer (sheeps.map (messageAt crates now)) s
    run.1 = publishOutcome loop.1 ∧ calls run.2.1 = loop.2.1 ∧ run.2.2 = loop.2.2 := by
  induction sheeps generalizing s with
  | nil => exact ⟨rfl, rfl, rfl⟩
  | cons sheep rest ih =>
      simp only [publishEach, ExceptT.run_bind, Prog.bind_eq, Prog.interp_bind, recordAccepted_run,
        Prog.interp_op, Prog.interp_pure, machine, List.map_cons, sending]
      rcases producer (messageAt crates now sheep) s with ⟨e | ⟨⟩, s'⟩
      · exact ⟨rfl, rfl, rfl⟩
      · obtain ⟨ended, made, final⟩ := ih s'
        exact ⟨ended, congrArg _ made, final⟩

theorem publishAll_run (sheeps : List Sheep) :
    (publishAll crates sheeps).run = Prog.op Effect.now fun now =>
      (publishEach crates now sheeps).run.bind fun out => .pure (out.map fun _ => 202) := by
  change Prog.op Effect.now _ = _
  congr 1
  funext now
  change ((publishEach crates now sheeps) >>= fun _ => pure 202 : Handler StatusCode).run = _
  rw [ExceptT.run_bind, Prog.bind_eq]
  congr 1
  funext out
  rcases out with halt | ⟨⟩ <;> rfl

/-- A planned request is its messages sent, and nothing else. -/
theorem outcome_publishAll (sheeps : List Sheep) (s : σ) :
    outcome producer now (publishAll crates sheeps) s =
      let loop := sending producer (sheeps.map (messageAt crates now)) s
      (sent loop.1, loop.2.1, loop.2.2) := by
  obtain ⟨ended, made, final⟩ := @interp_publishEach σ crates producer now sheeps s
  simp only [outcome, publishAll_run, Prog.interp_op, Prog.interp_bind, machine, Prog.interp_pure,
    List.append_nil, ended]
  refine Prod.ext ?_ (Prod.ext made final)
  rcases (sending producer (sheeps.map (messageAt crates now)) s).1 with e | ⟨⟩ <;> rfl

/-! ## The two paths -/

variable {body : Bytes} {event : Value}

theorem outcome_single_accepted {sheep : Sheep} (read : crates.fromSlice body = some event)
    (accepted : Accepts crates event sheep) (s : σ) :
    outcome producer now (ingestSingle crates body) s =
      let loop := sending producer [messageAt crates now sheep] s
      (sent loop.1, loop.2.1, loop.2.2) := by
  have planned := (planSingle_eq_ok_iff crates).mpr ⟨event, sheep, read, accepted, rfl⟩
  rw [ingestSingle_eq, planned, follow_ok]
  exact outcome_publishAll [sheep] s

theorem outcome_single_rejected {details : List String} (read : crates.fromSlice body = some event)
    (rejected : validate crates event = .ok (.error details)) (s : σ) :
    outcome producer now (ingestSingle crates body) s =
      (.error (.error (.ofDetails details)), [], s) := by
  have planned := (planSingle_eq_error_iff crates).mpr
    (.inr ⟨event, read, .inl ⟨details, rejected, rfl⟩⟩)
  rw [ingestSingle_eq, planned]
  rfl

/-- Accepted events submitted in turn are their messages sent. -/
theorem inTurn_accepted {bodies : List Bytes} {events : List Value} {sheeps : List Sheep}
    (each : List.Forall₂ (fun body event => crates.fromSlice body = some event) bodies events)
    (accepted : List.Forall₂ (Accepts crates) events sheeps) (s : σ) :
    inTurn crates producer now (.ok 202) bodies s =
      let loop := sending producer (sheeps.map (messageAt crates now)) s
      (sent loop.1, loop.2.1, loop.2.2) := by
  induction each generalizing sheeps s with
  | nil =>
      cases accepted
      rfl
  | cons read _ ih =>
      cases accepted with
      | @cons _ sheep _ rest taken more =>
          simp only [inTurn, outcome_single_accepted read taken, sending, List.map_cons]
          rcases producer (messageAt crates now sheep) s with ⟨e | ⟨⟩, s'⟩
          · have stopped : (responseOf (sent (.error e))).status ≠ 202 := by
              rw [ne_eq, (sent_status _).2]
              rintro ⟨⟩
            simp only [stopped, if_false]
          · have going : (responseOf (sent (.ok ()))).status = 202 := rfl
            have turn := ih more s'
            simp only [going, if_true]
            rw [show sent (.ok ()) = .ok 202 from rfl, turn]
            rfl

theorem detailsOf_rejected (details : List String) :
    detailsOf (.error (.error (.ofDetails details))) = details := by
  simp only [detailsOf, AppError.ofDetails, List.map_map]
  exact List.map_id details

theorem detailsOf_sent (ended : Except ProduceError Unit) : detailsOf (sent ended) = [] := by
  rcases ended with (_ | _) | ⟨⟩ <;> rfl

/-- The batch's failures are the details of the single path, one event at a time. -/
theorem indexedErrors_eq_tagged {bodies : List Bytes} {events : List Value}
    {verdicts : List (Except (List String) Sheep)}
    (each : List.Forall₂ (fun body event => crates.fromSlice body = some event) bodies events)
    (judged : List.Forall₂ (fun event verdict => validate crates event = .ok verdict) events verdicts)
    (index : Nat) (s : σ) :
    indexedErrors index verdicts =
      (taggedDetails crates producer now index bodies s).map fun tagged =>
        ⟨some tagged.1, tagged.2⟩ := by
  induction each generalizing verdicts index with
  | nil =>
      cases judged
      rfl
  | @cons body event bodies events read _ ih =>
      cases judged with
      | @cons _ verdict _ rest head tail =>
          have later := ih tail (index + 1)
          simp only [taggedDetails, List.zipIdx_cons, List.flatMap_cons, List.map_append] at later ⊢
          rcases verdict with details | sheep
          · rw [outcome_single_rejected read head, detailsOf_rejected, indexedErrors, later,
              List.map_map]
            rfl
          · rw [outcome_single_accepted read head, detailsOf_sent, indexedErrors, later]
            rfl

/-- A single event is answered 400 exactly when it has details to list. -/
theorem single_status_iff (read : crates.fromSlice body = some event)
    (returns : ∃ verdict, validate crates event = .ok verdict) (s : σ) :
    (responseOf (outcome producer now (ingestSingle crates body) s).1).status = 400 ↔
      detailsOf (outcome producer now (ingestSingle crates body) s).1 ≠ [] := by
  obtain ⟨details | sheep, judged⟩ := returns
  · have nonempty := validate_rejects_nonempty crates judged
    rw [outcome_single_rejected read judged, detailsOf_rejected]
    exact ⟨fun _ => nonempty, fun _ => rfl⟩
  · rw [outcome_single_accepted read judged, detailsOf_sent]
    exact ⟨fun status => absurd status (sent_status _).1, fun some_detail => absurd rfl some_detail⟩

/-- A refused single event is told its details and nothing else. -/
theorem single_refused (read : crates.fromSlice body = some event)
    (returns : ∃ verdict, validate crates event = .ok verdict) {s : σ}
    (refused : (responseOf (outcome producer now (ingestSingle crates body) s).1).status = 400) :
    responseOf (outcome producer now (ingestSingle crates body) s).1 =
      ⟨400, [("content-type", "application/json")], .json (.object [("errors", .array
        ((detailsOf (outcome producer now (ingestSingle crates body) s).1).map fun detail =>
          .object [("detail", .string detail)]))])⟩ := by
  obtain ⟨details | sheep, judged⟩ := returns
  · rw [outcome_single_rejected read judged, detailsOf_rejected]
    simp only [responseOf, AppError.rendered, AppError.ofDetails, AppError.statusAndErrors,
      List.map_map]
    rfl
  · rw [outcome_single_accepted read judged] at refused
    exact absurd refused (sent_status _).1

theorem mem_taggedDetails {bodies : List Bytes} {s : σ} {i : Nat} {detail : String}
    (member : (i, detail) ∈ taggedDetails crates producer now 0 bodies s) :
    ∃ body, bodies[i]? = some body ∧
      detailsOf (outcome producer now (ingestSingle crates body) s).1 ≠ [] := by
  obtain ⟨⟨body, i⟩, entry, tagged⟩ := List.mem_flatMap.mp member
  obtain ⟨detail, inside, ⟨⟩⟩ := List.mem_map.mp tagged
  exact ⟨body, List.mk_mem_zipIdx_iff_getElem?.mp entry, List.ne_nil_of_mem inside⟩

theorem taggedDetails_ne_nil_iff {bodies : List Bytes} {s : σ} :
    taggedDetails crates producer now 0 bodies s ≠ [] ↔
      ∃ body ∈ bodies, detailsOf (outcome producer now (ingestSingle crates body) s).1 ≠ [] := by
  constructor
  · intro nonempty
    obtain ⟨⟨i, detail⟩, member⟩ := List.exists_mem_of_ne_nil _ nonempty
    obtain ⟨body, found, failing⟩ := mem_taggedDetails member
    exact ⟨body, List.mem_of_getElem? found, failing⟩
  · rintro ⟨body, member, failing⟩ empty
    obtain ⟨i, found⟩ := List.mem_iff_getElem?.mp member
    have entry : (body, i) ∈ bodies.zipIdx := List.mk_mem_zipIdx_iff_getElem?.mpr found
    have none := List.flatMap_eq_nil_iff.mp empty _ entry
    exact failing (List.map_eq_nil_iff.mp none)

/-- What the client is told of tagged details. -/
theorem responseOf_tagged (failures : List (Nat × String)) :
    responseOf (.error (.error (.validation (failures.map fun tagged => ⟨some tagged.1, tagged.2⟩)))) =
      ⟨400, [("content-type", "application/json")],
        .json (.object [("errors", .array (failures.map fun tagged =>
          .object [("detail", .string tagged.2), ("index", .number (.int tagged.1))]))])⟩ := by
  have items : (failures.map fun tagged => ⟨some tagged.1, tagged.2⟩).map
      AppError.renderValidationItem = failures.map fun tagged =>
        .object [("detail", .string tagged.2), ("index", .number (.int tagged.1))] := by
    rw [List.map_map]
    exact List.map_congr_left fun tagged _ =>
      AppError.renderValidationItem_indexed tagged.1 tagged.2
  simp only [responseOf, AppError.rendered, AppError.statusAndErrors, items]
  rfl

/-- A batch with failures calls nothing. -/
theorem outcome_batch_rejected {maxBatchEvents : Nat} {events : List Value}
    {verdicts : List (Except (List String) Sheep)} (batch : BatchOf crates body maxBatchEvents events)
    (judged : validations crates events = .ok verdicts) (some_error : indexedErrors 0 verdicts ≠ [])
    (s : σ) : outcome producer now (ingestBatch crates body maxBatchEvents) s =
      (.error (.error (.validation (indexedErrors 0 verdicts))), [], s) := by
  obtain ⟨read, nonempty, within⟩ := batch
  have planned : planBatch crates body maxBatchEvents =
      .error (.error (.validation (indexedErrors 0 verdicts))) :=
    (planBatch_eq_error_iff crates).mpr (.inr ⟨_, read, .inr ⟨events,
      batchEvents_eq_ok_iff.mpr ⟨rfl, nonempty, within⟩,
      (planEvents_eq_error_iff crates).mpr (.inr ⟨verdicts, judged, some_error, rfl⟩)⟩⟩)
  rw [ingestBatch_eq, planned]
  rfl

/-- A batch without failures is its messages sent. -/
theorem outcome_batch_accepted {maxBatchEvents : Nat} {events : List Value} {sheeps : List Sheep}
    (batch : BatchOf crates body maxBatchEvents events)
    (accepted : List.Forall₂ (Accepts crates) events sheeps) (s : σ) :
    outcome producer now (ingestBatch crates body maxBatchEvents) s =
      let loop := sending producer (sheeps.map (messageAt crates now)) s
      (sent loop.1, loop.2.1, loop.2.2) := by
  obtain ⟨read, nonempty, within⟩ := batch
  have planned := (planBatch_eq_ok_iff crates).mpr ⟨events, read, nonempty, within, accepted⟩
  rw [ingestBatch_eq, planned, follow_ok]
  exact outcome_publishAll sheeps s

/-- **A batch is its events ingested one after another.** -/
theorem batch_in_turn (crates : Crates) (producer : Producer σ) (now : OffsetDateTime) (s : σ)
    {body : Bytes} {maxBatchEvents : Nat} {events : List Value} {bodies : List Bytes}
    (batch : BatchOf crates body maxBatchEvents events)
    (each : List.Forall₂ (fun body event => crates.fromSlice body = some event) bodies events)
    (returns : ∀ event ∈ events, ∃ verdict, validate crates event = .ok verdict) :
    let single body := (responseOf (outcome producer now (ingestSingle crates body) s).1).status
    let whole := outcome producer now (ingestBatch crates body maxBatchEvents) s
    let failures := taggedDetails crates producer now 0 bodies s
    ((∃ body ∈ bodies, single body = 400) →
      whole.2 = ([], s) ∧
        responseOf whole.1 = ⟨400, [("content-type", "application/json")],
          .json (.object [("errors", .array (failures.map fun tagged =>
            .object [("detail", .string tagged.2), ("index", .number (.int tagged.1))]))])⟩ ∧
        failures ≠ [] ∧
        (∀ i detail, (i, detail) ∈ failures →
          ∃ body, bodies[i]? = some body ∧ single body = 400) ∧
        ∀ body ∈ bodies, single body = 400 →
          responseOf (outcome producer now (ingestSingle crates body) s).1 =
            ⟨400, [("content-type", "application/json")], .json (.object [("errors", .array
              ((detailsOf (outcome producer now (ingestSingle crates body) s).1).map fun detail =>
                .object [("detail", .string detail)]))])⟩) ∧
    ((¬ ∃ body ∈ bodies, single body = 400) → whole = inTurn crates producer now (.ok 202) bodies s) := by
  intro single whole failures
  obtain ⟨verdicts, judged⟩ : ∃ verdicts, validations crates events = .ok verdicts := by
    cases validated : validations crates events with
    | ok verdicts => exact ⟨verdicts, rfl⟩
    | error panic =>
        obtain ⟨event, member, panic', panicked⟩ := validations_panics_iff.mp ⟨panic, validated⟩
        obtain ⟨verdict, returned⟩ := returns event member
        rw [returned] at panicked
        cases panicked
  have related := (validations_eq_ok_iff crates).mp judged
  have tagged : indexedErrors 0 verdicts = failures.map fun tagged => ⟨some tagged.1, tagged.2⟩ :=
    indexedErrors_eq_tagged each related 0 s
  have status_iff : ∀ body ∈ bodies, single body = 400 ↔
      detailsOf (outcome producer now (ingestSingle crates body) s).1 ≠ [] := by
    intro body member
    obtain ⟨event, inside, parsed⟩ := related_of_mem each member
    exact single_status_iff parsed (returns event inside) s
  have rejected_iff : (∃ body ∈ bodies, single body = 400) ↔ failures ≠ [] := by
    refine Iff.trans ?_ taggedDetails_ne_nil_iff.symm
    exact exists_congr fun body => and_congr_right (status_iff body)
  constructor
  · intro rejected
    have failing := rejected_iff.mp rejected
    have listed : indexedErrors 0 verdicts ≠ [] := by
      rw [tagged]
      exact failing ∘ List.map_eq_nil_iff.mp
    have ran : whole = (.error (.error (.validation
        (failures.map fun tagged => ⟨some tagged.1, tagged.2⟩))), [], s) := by
      rw [← tagged]
      exact outcome_batch_rejected batch judged listed s
    refine ⟨by rw [ran], by rw [ran, responseOf_tagged], failing, ?_, ?_⟩
    · intro i detail member
      obtain ⟨body, found, failed⟩ := mem_taggedDetails member
      exact ⟨body, found, (status_iff body (List.mem_of_getElem? found)).mpr failed⟩
    · intro body member refused
      obtain ⟨event, inside, parsed⟩ := related_of_mem each member
      exact single_refused parsed (returns event inside) refused
  · intro none_rejected
    have clean : indexedErrors 0 verdicts = [] := by
      rw [tagged, List.map_eq_nil_iff]
      exact not_not.mp (none_rejected ∘ rejected_iff.mpr)
    have accepted := accepts_of_no_errors crates related clean
    exact (outcome_batch_accepted batch accepted s).trans (inTurn_accepted each accepted s).symm

end Loop

/-! ## Two events and one slot, and a batch with two rejected events -/

/-- A producer with a fixed number of slots. -/
def slots (capacity : Nat) : Producer Nat := fun _ n =>
  if n < capacity then (.ok (), n + 1) else (.error .queueFull, n)

/-- An event with a blank `id` and nothing else. -/
def blankEvent : Value := .object [("id", .string "")]

def blankDetails : List String :=
  ["id must not be empty", "source is required", "type is required", "specversion is required",
    "subject is required"]

theorem blankEvent_rejected (crates : Crates) :
    validate crates blankEvent = .ok (.error blankDetails) := rfl

theorem blankEvent_canonical : Canonical blankEvent := ⟨List.pairwise_singleton _ _, trivial, trivial⟩

/-- A batch of two against one slot goes as its two events do, one after the other; a
batch whose first and last events are rejected gets the details of both, each with
its position. -/
theorem batch_in_turn_one_slot :
    (outcome (slots 1) .epoch (ingestBatch reference (batchRequest [sampleEvent, sampleEvent]).2 100) 0 =
      inTurn reference (slots 1) .epoch (.ok 202)
        [(singleRequest sampleEvent).2, (singleRequest sampleEvent).2] 0) ∧
    responseOf (outcome (slots 1) .epoch
        (ingestBatch reference (batchRequest [.null, sampleEvent, blankEvent]).2 100) 0).1 =
      ⟨400, [("content-type", "application/json")], .json (.object [("errors", .array
        ([(0, "body must be a JSON object"), (2, "id must not be empty"), (2, "source is required"),
          (2, "type is required"), (2, "specversion is required"), (2, "subject is required")].map
            fun (tagged : Nat × String) =>
              .object [("detail", .string tagged.2), ("index", .number (.int tagged.1))]))])⟩ := by
  have single : reference.fromSlice (singleRequest sampleEvent).2 = some sampleEvent :=
    reference_reads sampleEvent_canonical (by decide)
  constructor
  · have batch : reference.fromSlice (batchRequest [sampleEvent, sampleEvent]).2 =
        some (.array [sampleEvent, sampleEvent]) :=
      reference_reads ⟨sampleEvent_canonical, sampleEvent_canonical, trivial⟩ (by decide)
    have shape : BatchOf reference (batchRequest [sampleEvent, sampleEvent]).2 100
        [sampleEvent, sampleEvent] := ⟨batch, List.cons_ne_nil _ _, show 2 ≤ 100 by decide⟩
    refine (batch_in_turn reference (slots 1) .epoch 0 shape (.cons single (.cons single .nil)) ?_).2 ?_
    · intro event member
      have same : event = sampleEvent := by simpa using member
      rw [same]
      exact ⟨_, sampleEvent_accepted reference⟩
    · rintro ⟨body, member, refused⟩
      have same : body = (singleRequest sampleEvent).2 := by simpa using member
      simp only [same, outcome_single_accepted single (sampleEvent_accepted reference)] at refused
      exact (sent_status _).1 refused
  · have batch : reference.fromSlice (batchRequest [.null, sampleEvent, blankEvent]).2 =
        some (.array [.null, sampleEvent, blankEvent]) :=
      reference_reads ⟨trivial, sampleEvent_canonical, blankEvent_canonical, trivial⟩ (by decide)
    have null : reference.fromSlice (singleRequest .null).2 = some .null :=
      reference_reads trivial (by decide)
    have blank : reference.fromSlice (singleRequest blankEvent).2 = some blankEvent :=
      reference_reads blankEvent_canonical (by decide)
    have nullRejected : validate reference .null = .ok (.error ["body must be a JSON object"]) := rfl
    have shape : BatchOf reference (batchRequest [.null, sampleEvent, blankEvent]).2 100
        [.null, sampleEvent, blankEvent] := ⟨batch, List.cons_ne_nil _ _, show 3 ≤ 100 by decide⟩
    have answered := ((batch_in_turn reference (slots 1) .epoch 0 shape
      (.cons null (.cons single (.cons blank .nil))) ?_).1 ?_).2.1
    · rw [answered]
      simp only [taggedDetails, List.zipIdx_cons, List.zipIdx_nil, List.flatMap_cons, List.flatMap_nil,
        outcome_single_rejected null nullRejected, outcome_single_rejected blank
          (blankEvent_rejected reference), outcome_single_accepted single
          (sampleEvent_accepted reference), detailsOf_rejected, detailsOf_sent]
      rfl
    · intro event member
      rcases List.mem_cons.mp member with rfl | member
      · exact ⟨_, nullRejected⟩
      rcases List.mem_cons.mp member with rfl | member
      · exact ⟨_, sampleEvent_accepted reference⟩
      · rw [List.mem_singleton.mp member]
        exact ⟨_, blankEvent_rejected reference⟩
    · refine ⟨_, List.mem_cons_self, ?_⟩
      simp only [outcome_single_rejected null nullRejected]
      rfl

end CountingSheep.Ingest
