/-
# CountingSheep.Http.Payload — what an event's payload can influence

An event's `subject`, its `data` and its extension members are the client's own
business. Two requests that differ only there, and in whether nothing is wrong with
the subject do not, are taken through the logged service in lockstep: the message
handed to the producer may differ in its key and its payload, and nothing else does.

* `validate_alike`, `matched_publishEach`, `matched_serve`: one step of the argument
  for each part of the request path.
* `payload_confidential`: the log, the exception reports and the response say the
  same of both, at every moment.
-/
import CountingSheep.Http.Logged
import CountingSheep.Ingest.Submission
import CountingSheep.Observability.Egress
import CountingSheep.Theory.Matched

namespace CountingSheep.Http.Logged

open Rust Ingest Observability
open Theory (Prog Event Noted)
open Theory.Prog (Matched SameExit SameEvent NotedAlike sameAnswer exists_sameAnswer notes_eq_of_same
  acts_same)
open Theory.Noted (acts notes)
open Theory.Json (Value)

set_option autoImplicit false

/-! ## Events that differ in their payload -/

/-- The members an event is judged and logged by, besides its subject. -/
def publicMembers : List String :=
  ["id", "source", "type", "specversion", "datacontenttype", "dataschema", "time"]

/-- Events that differ at most in their payload. -/
inductive SameButPayload : Value → Value → Prop where
  | same (v : Value) : SameButPayload v v
  | event {obj obj' : Members} (shown : ∀ name ∈ publicMembers, obj.lookup name = obj'.lookup name)
      (subject : requiredDefect "subject" (obj.lookup "subject") =
        requiredDefect "subject" (obj'.lookup "subject")) :
      SameButPayload (.object obj) (.object obj')

/-- Bodies with such events. -/
inductive SameButPayloads : Option Value → Option Value → Prop where
  | unreadable : SameButPayloads none none
  | single {v v' : Value} (same : SameButPayload v v') : SameButPayloads (some v) (some v')
  | batch {events events' : List Value} (same : List.Forall₂ SameButPayload events events') :
      SameButPayloads (some (.array events)) (some (.array events'))

/-- Accepted events that differ at most in their payload. -/
structure SheepAlike (sheep sheep' : Sheep) : Prop where
  id : sheep.id = sheep'.id
  source : sheep.source = sheep'.source
  type : sheep.type = sheep'.type
  specversion : sheep.specversion = sheep'.specversion
  time : sheep.time = sheep'.time

/-- Effects that differ at most in the key and the payload of a message. -/
inductive Alike : Effect → Effect → Prop where
  | same (effect : Effect) : Alike effect effect
  | produce {message message' : ProducedMessage} (specversion : message.specversion = message'.specversion)
      (receivedAt : message.receivedAtUnix = message'.receivedAtUnix) :
      Alike (.produce message) (.produce message')

theorem Alike.typed (effect effect' : Effect) (alike : Alike effect effect') :
    effect.Answer = effect'.Answer := by
  cases alike <;> rfl

section

variable {crates : Crates}

/-! ## Validation -/

theorem validate_alike {v v' : Value} (same : SameButPayload v v') :
    SameExit (SameExit SheepAlike) (validate crates v) (validate crates v') := by
  cases same with
  | same v =>
      rcases validate crates v with panic | details | sheep
      · exact .error panic
      · exact .ok (.error details)
      · exact .ok (.ok ⟨rfl, rfl, rfl, rfl, rfl⟩)
  | @event obj obj' shown subject =>
      have judged : defects crates obj = defects crates obj' := by
        simp only [defects, verdicts, subject, shown "id" (by decide), shown "source" (by decide),
          shown "type" (by decide), shown "specversion" (by decide), shown "time" (by decide),
          shown "datacontenttype" (by decide), shown "dataschema" (by decide)]
      rw [validate_object, validate_object, judged, shown "time" (by decide)]
      rcases timeOf crates (obj'.lookup "time") with panic | time
      · exact .error panic
      · by_cases clean : defects crates obj' = []
        · simp only [Except.map, if_pos clean]
          refine .ok (.ok ⟨?_, ?_, ?_, ?_, rfl⟩)
          · simp only [sheepOf, shown "id" (by decide)]
          · simp only [sheepOf, shown "source" (by decide)]
          · simp only [sheepOf, shown "type" (by decide)]
          · simp only [sheepOf, shown "specversion" (by decide)]
        · simp only [Except.map, if_neg clean]
          exact .ok (.error _)

/-- What the validation loop returns on both. -/
def LoopAlike (out out' : List Sheep × List ValidationItem) : Prop :=
  List.Forall₂ SheepAlike out.1 out'.1 ∧ out.2 = out'.2

theorem validateEach_alike {events events' : List Value} (same : List.Forall₂ SameButPayload events events')
    (index : Nat) {accepted accepted' : List Sheep} (already : List.Forall₂ SheepAlike accepted accepted')
    (errors : List ValidationItem) :
    SameExit LoopAlike (validateEach crates index events accepted errors)
      (validateEach crates index events' accepted' errors) := by
  induction same generalizing index accepted accepted' errors with
  | nil => exact .ok ⟨already, rfl⟩
  | cons head _ ih =>
      refine (validate_alike head).bind fun verdict verdict' judged => ?_
      cases judged with
      | error details => exact ih (index + 1) already _
      | ok alike => exact ih (index + 1) (List.rel_append already (.cons alike .nil)) errors

/-! ## The request path -/

/-- Two handlers in lockstep. -/
abbrev Lockstep {α β : Type} (ends : α → β → Prop) (p : LoggedHandler α) (q : LoggedHandler β) : Prop :=
  Matched (NotedAlike Alike) sameAnswer (SameExit ends) p.run q.run

theorem matched_ofExec {α β : Type} {ends : α → β → Prop} {exec : Exec α} {exec' : Exec β}
    (same : SameExit ends exec exec') : Lockstep ends (ofExec exec) (ofExec exec') := by
  cases same with
  | error panic => exact .pure (.error _)
  | ok ended => exact .pure (.ok ended)

theorem matched_recordAccepted {now : OffsetDateTime} {sheep sheep' : Sheep} (alike : SheepAlike sheep sheep') :
    Lockstep Eq (recordAccepted crates (stamp sheep now)) (recordAccepted crates (stamp sheep' now)) := by
  have line : Line.sheepAccepted (stamp sheep now) = Line.sheepAccepted (stamp sheep' now) := by
    simp only [Line.sheepAccepted, stamp, alike.id, alike.source, alike.type, alike.time]
  unfold recordAccepted
  rw [line]
  refine .op (.note _) fun _ _ _ => .op (.act (.produce alike.specversion rfl)) fun answer answer' same => ?_
  obtain rfl := eq_of_heq same
  rcases answer with e | ⟨⟩
  · exact .pure (.error _)
  · exact .pure (.ok rfl)

theorem matched_publishEach (now : OffsetDateTime) {sheeps sheeps' : List Sheep}
    (alike : List.Forall₂ SheepAlike sheeps sheeps') :
    Lockstep Eq (publishEach crates now sheeps) (publishEach crates now sheeps') := by
  induction alike with
  | nil => exact .pure (.ok rfl)
  | cons head _ ih => exact (matched_recordAccepted head).bindE fun _ _ _ => ih

theorem matched_now : Lockstep Eq (perform .now) (perform .now) :=
  .op (.act (.same _)) fun _ _ same => .pure (.ok (eq_of_heq same))

theorem matched_parseJson {body body' : Bytes}
    (same : SameButPayloads (crates.fromSlice body) (crates.fromSlice body')) :
    Lockstep (fun v v' => SameButPayloads (some v) (some v')) (follow (parseJson crates body))
      (follow (parseJson crates body')) := by
  unfold parseJson
  generalize crates.fromSlice body = read at same ⊢
  generalize crates.fromSlice body' = read' at same ⊢
  cases same with
  | unreadable => exact .pure (.error _)
  | single same => exact .pure (.ok (.single same))
  | batch same => exact .pure (.ok (.batch same))

/-- A batch in the place of a single event is no event, whatever is in it. -/
theorem validate_alike_of_payloads {v v' : Value} (same : SameButPayloads (some v) (some v')) :
    SameExit (SameExit SheepAlike) (validate crates v) (validate crates v') := by
  cases same with
  | single same => exact validate_alike same
  | batch same => exact .ok (.error _)

theorem matched_ingestSingle {body body' : Bytes}
    (same : SameButPayloads (crates.fromSlice body) (crates.fromSlice body')) :
    Lockstep Eq (ingestSingle crates body) (ingestSingle crates body') := by
  unfold ingestSingle
  refine (matched_parseJson same).bindE fun v v' read => ?_
  refine (matched_ofExec (validate_alike_of_payloads read)).bindE fun verdict verdict' judged => ?_
  cases judged with
  | error details => exact .pure (.error _)
  | ok alike =>
      refine matched_now.bindE ?_
      rintro now _ rfl
      exact (matched_recordAccepted alike).bindE fun _ _ _ => .pure (.ok rfl)

/-- Both are batches, or neither is. -/
theorem batch_or_not {v v' : Value} (same : SameButPayloads (some v) (some v')) :
    (∃ events events', v = .array events ∧ v' = .array events' ∧ List.Forall₂ SameButPayload events events') ∨
      (∀ events, v ≠ .array events) ∧ ∀ events, v' ≠ .array events := by
  cases same with
  | batch same => exact .inl ⟨_, _, rfl, rfl, same⟩
  | single same =>
      cases same with
      | event => exact .inr ⟨fun _ same => (by cases same), fun _ same => (by cases same)⟩
      | same v =>
          cases v with
          | array events => exact .inl ⟨events, events, rfl, rfl, List.forall₂_same.mpr fun v _ => .same v⟩
          | null | bool _ | number _ | string _ | object _ =>
              exact .inr ⟨fun _ same => (by cases same), fun _ same => (by cases same)⟩

theorem matched_ingestBatch {body body' : Bytes} (maxBatchEvents : Nat)
    (same : SameButPayloads (crates.fromSlice body) (crates.fromSlice body')) :
    Lockstep Eq (ingestBatch crates body maxBatchEvents) (ingestBatch crates body' maxBatchEvents) := by
  unfold ingestBatch
  refine (matched_parseJson same).bindE fun v v' read => ?_
  rcases batch_or_not read with ⟨events, events', rfl, rfl, alike⟩ | ⟨other, other'⟩
  · have length := alike.length_eq
    have empty : events.isEmpty = events'.isEmpty := by
      cases alike <;> rfl
    by_cases none : events'.isEmpty = true
    · simp only [empty, none, if_true]
      exact .pure (.error _)
    · by_cases exceeds : events'.length > maxBatchEvents
      · simp only [empty, length, none, exceeds, if_true]
        exact .pure (.error _)
      · simp only [empty, length, none, exceeds]
        refine (matched_ofExec (validateEach_alike alike 0 .nil [])).bindE fun out out' ended => ?_
        obtain ⟨accepted, errors⟩ := out
        obtain ⟨accepted', errors'⟩ := out'
        obtain ⟨sheeps, rfl⟩ := ended
        cases errors with
        | cons item items => exact .pure (.error _)
        | nil =>
            refine matched_now.bindE ?_
            rintro now _ rfl
            exact (matched_publishEach now sheeps).bindE fun _ _ _ => .pure (.ok rfl)
  · cases v with
    | array events => exact absurd rfl (other events)
    | null | bool _ | number _ | string _ | object _ =>
        cases v' with
        | array events => exact absurd rfl (other' events)
        | null | bool _ | number _ | string _ | object _ => exact .pure (.error _)

theorem matched_createSheep (state : AppState) (headers : HeaderMap) {body body' : Bytes}
    (same : SameButPayloads (crates.fromSlice body) (crates.fromSlice body')) :
    Lockstep Eq (createSheep crates state headers body) (createSheep crates state headers body') := by
  unfold createSheep
  split
  · exact matched_ingestSingle same
  · split
    · exact matched_ingestBatch state.maxBatchEvents same
    · exact .pure (.error _)

/-- A program that depends on no payload, in lockstep with itself. -/
theorem matched_self {α : Type} (p : Written α) : Matched (NotedAlike Alike) sameAnswer Eq p p := by
  induction p with
  | pure a => exact .pure rfl
  | op effect k ih =>
      have alike : NotedAlike Alike effect effect := by
        cases effect with
        | act effect => exact .act (.same effect)
        | note line => exact .note line
      refine .op alike fun answer answer' same => ?_
      obtain rfl := eq_of_heq same
      exact ih answer

/-- Bodies that differ at most in the payloads of their events, and in length on the same side of
the limit; or that break off with the same error. -/
inductive SameBody (crates : Crates) : Incoming → Incoming → Prop where
  | whole {body body' : Bytes} (length : body.length > defaultBodyLimit ↔ body'.length > defaultBodyLimit)
      (payloads : SameButPayloads (crates.fromSlice body) (crates.fromSlice body')) :
      SameBody crates (.whole body) (.whole body')
  | broken {arrived arrived' : Bytes}
      (length : arrived.length > defaultBodyLimit ↔ arrived'.length > defaultBodyLimit) (error : String) :
      SameBody crates (.broken arrived error) (.broken arrived' error)

/-- They are rejected alike, or both are buffered. -/
theorem bufferBody_alike {incoming incoming' : Incoming} (same : SameBody crates incoming incoming') :
    SameExit (fun body body' => SameButPayloads (crates.fromSlice body) (crates.fromSlice body'))
      (bufferBody incoming) (bufferBody incoming') := by
  cases same with
  | @whole body body' length payloads =>
      by_cases exceeds : body.length > defaultBodyLimit
      · rw [@bufferBody_exceeding (.whole body) exceeds,
          @bufferBody_exceeding (.whole body') (length.mp exceeds)]
        exact .error _
      · rw [bufferBody_whole (Nat.not_lt.mp exceeds),
          bufferBody_whole (Nat.not_lt.mp (exceeds ∘ length.mpr))]
        exact .ok payloads
  | @broken arrived arrived' length error =>
      by_cases exceeds : arrived.length > defaultBodyLimit
      · rw [@bufferBody_exceeding (.broken arrived error) exceeds,
          @bufferBody_exceeding (.broken arrived' error) (length.mp exceeds)]
        exact .error _
      · rw [bufferBody_broken (Nat.not_lt.mp exceeds),
          bufferBody_broken (Nat.not_lt.mp (exceeds ∘ length.mpr))]
        exact .error _

/-- Requests that differ at most in the payloads of their events. -/
structure SameRequest (crates : Crates) (request request' : Request) : Prop where
  method : request.method = request'.method
  path : request.path = request'.path
  headers : request.headers = request'.headers
  body : SameBody crates request.body request'.body

theorem matched_sheepsRoute (state : AppState) {request request' : Request}
    (same : SameRequest crates request request') :
    Matched (NotedAlike Alike) sameAnswer Eq (sheepsRoute crates state request)
      (sheepsRoute crates state request') := by
  have alike := bufferBody_alike same.body
  unfold sheepsRoute
  rw [same.headers]
  generalize bufferBody request.body = buffered at alike ⊢
  generalize bufferBody request'.body = buffered' at alike ⊢
  cases alike with
  | error rejection => exact .pure rfl
  | ok payloads =>
      refine (matched_createSheep state request'.headers payloads).bind fun result result' ended => ?_
      cases ended with
      | error halt => exact matched_self _
      | ok ended =>
          cases ended
          exact matched_self _

theorem matched_serve (state : AppState) {request request' : Request}
    (same : SameRequest crates request request') :
    Matched (NotedAlike Alike) sameAnswer Eq (serve crates state request) (serve crates state request') := by
  have routed : Matched (NotedAlike Alike) sameAnswer Eq (buildAxumRouter crates state request)
      (buildAxumRouter crates state request') := by
    unfold buildAxumRouter
    rw [same.path, same.method]
    split
    · exact matched_self _
    · split
      · cases request'.method with
        | post => exact matched_sheepsRoute state same
        | get | head | other => exact matched_self _
      · exact matched_self _
  refine routed.bind ?_
  rintro out _ rfl
  exact matched_self _

theorem reports_same {trace trace' : List (Event Effect Effect.Answer)}
    (same : List.Forall₂ (SameEvent Alike sameAnswer) trace trace') : reportsOf trace = reportsOf trace' := by
  induction same with
  | nil => rfl
  | @cons event event' trace trace' same _ ih =>
      obtain ⟨effect, answer⟩ := event
      obtain ⟨effect', answer'⟩ := event'
      obtain ⟨alike, -⟩ := same
      cases alike with
      | produce _ _ => exact ih
      | same effect =>
          cases effect with
          | report report => exact congrArg (report :: ·) ih
          | now | produce _ => exact ih

/-- **Nothing is said of a payload.** Whatever a request does, one that differs from it only in the
payloads of its events does with the same answers: it writes the same lines, reports the same
exceptions, and is answered exactly when that one is, with the same response. A message of one
differs from that of the other at most in its key and its payload. -/
theorem payload_confidential (crates : Crates) (state : AppState) (request request' : Request)
    (same : SameRequest crates request request') (trace : List (Event LoggedEffect LoggedEffect.Answer))
    (rest : Written Response)
    (steps : Prog.Steps (serve crates state request) trace rest) :
    ∃ trace' rest', Prog.Steps (serve crates state request') trace' rest' ∧
      List.Forall₂ (SameEvent (NotedAlike Alike) sameAnswer) trace trace' ∧ notes trace = notes trace' ∧
      reportsOf (acts trace) = reportsOf (acts trace') ∧
      ∀ response, rest = .pure response ↔ rest' = .pure response := by
  obtain ⟨trace', rest', steps', alike, ends⟩ :=
    (matched_serve state same).steps (exists_sameAnswer (NotedAlike.typed Alike.typed)) steps
  refine ⟨trace', rest', steps', alike, notes_eq_of_same alike, reports_same (acts_same alike), ?_⟩
  intro response
  cases ends with
  | op _ _ => simp
  | pure ended =>
      cases ended
      rfl

/-- Two events about different subjects, and for everyone but the consumer the same. -/
theorem sameRequest_subjects {subject subject' : String} (about : subject ≠ "") (about' : subject' ≠ "")
    (within : (singleRequest (leastEvent "1" "/meadow" "sheep.counted" subject)).2.length ≤ defaultBodyLimit)
    (within' : (singleRequest (leastEvent "1" "/meadow" "sheep.counted" subject')).2.length ≤
      defaultBodyLimit) :
    SameRequest reference
      (sheepsRequest (contentType cloudeventsJson)
        (.whole (singleRequest (leastEvent "1" "/meadow" "sheep.counted" subject)).2))
      (sheepsRequest (contentType cloudeventsJson)
        (.whole (singleRequest (leastEvent "1" "/meadow" "sheep.counted" subject')).2)) := by
  have read (subject : String) :
      reference.fromSlice (singleRequest (leastEvent "1" "/meadow" "sheep.counted" subject)).2 =
        some (leastEvent "1" "/meadow" "sheep.counted" subject) :=
    reference_reads (leastEvent_canonical ..) (show (1 : Nat) ≤ nestingLimit by decide)
  refine ⟨rfl, rfl, rfl, .whole (iff_of_false (Nat.not_lt.mpr within) (Nat.not_lt.mpr within')) ?_⟩
  rw [read, read]
  refine .single (.event ?_ ?_)
  · simp only [publicMembers, List.mem_cons, List.not_mem_nil, or_false, forall_eq_or_imp, forall_eq]
    exact ⟨rfl, rfl, rfl, rfl, rfl, rfl, rfl⟩
  · simp [List.lookup, requiredDefect, about, about']

/-- Two subjects, the same lines, and the same response. -/
theorem payload_confidential_subjects :
    ∃ trace trace' response,
      Prog.Returns (serve reference ⟨100⟩ (sheepsRequest (contentType cloudeventsJson)
        (.whole (singleRequest (leastEvent "1" "/meadow" "sheep.counted" "flock-7")).2))) trace response ∧
      Prog.Returns (serve reference ⟨100⟩ (sheepsRequest (contentType cloudeventsJson)
        (.whole (singleRequest (leastEvent "1" "/meadow" "sheep.counted" "flock-8")).2))) trace' response ∧
      notes trace = notes trace' := by
  have : ∀ effect : LoggedEffect, Nonempty effect.Answer
    | .act effect => inferInstanceAs (Nonempty effect.Answer)
    | .note _ => ⟨⟨⟩⟩
  have same := @sameRequest_subjects "flock-7" "flock-8" (by decide) (by decide) (by decide) (by decide)
  obtain ⟨trace, response, returned⟩ := Prog.exists_returns (serve reference ⟨100⟩
    (sheepsRequest (contentType cloudeventsJson)
      (.whole (singleRequest (leastEvent "1" "/meadow" "sheep.counted" "flock-7")).2)))
  obtain ⟨trace', rest', steps', -, lines, -, ends⟩ := payload_confidential _ _ _ _ same _ _ returned
  obtain rfl := (ends response).mp rfl
  exact ⟨trace, trace', response, returned, steps', lines⟩

end

end CountingSheep.Http.Logged
