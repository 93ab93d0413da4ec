/-
# CountingSheep.Ingest.Retry — resubmitting a batch until it is accepted

A client submits one valid batch over and over on a queue it shares with anyone;
its first attempts are answered 503 or 500, its last 202. `Retried` is what the
queue then holds of it: a prefix of the batch for each failed attempt and the whole
batch at the end, hence each event at least once, and exactly once more for each
failed attempt that got past it (`retried_batch`).

`attempt_of_plan` is one attempt; `Prog.times_returns_iff` takes the client's trace
apart into its attempts; `logOf_run` says that is all there is in the queue.
-/
import CountingSheep.Ingest.Acknowledge
import CountingSheep.Ingest.Totality
import CountingSheep.Theory.Rounds

namespace CountingSheep.Ingest

open Rust Http
open Theory (Prog Event World System History Run related_of_mem)
open Theory.Json (Value)
open Theory.Rounds (copies mem_copies length_copies_snoc length_copies_antitone)

set_option autoImplicit false

section Spec

variable (crates : Crates)

/-- `message` carries everything of `sheep` but the time it was received. -/
structure CopyOf (sheep : Sheep) (message : ProducedMessage) : Prop where
  key : message.key = sheep.subject
  specversion : message.specversion = sheep.specversion
  payload : ∃ time : Int, message.payload = crates.toVec (.objectOf [
    ("id", .string sheep.id), ("type", .string sheep.type), ("source", .string sheep.source),
    ("subject", .string sheep.subject), ("time", .number (.int time)),
    ("data", sheep.data.getD .null)])

/-- The first messages of a batch, stamped with the one clock reading of the trace. -/
def PrefixOf (sheeps : List Sheep) (trace : List (Event Effect Effect.Answer)) : Prop :=
  ∃ now, readings trace = [now] ∧
    enqueued trace = (sheeps.take (enqueued trace).length).map (messageAt crates now)

/-- What the queue holds of a client after attempts at one batch, all failed but the
last: `rounds` are the messages each failed attempt left, `full` those of the last. -/
structure Retried (sheeps : List Sheep) (attempts : List (List (Event Effect Effect.Answer)))
    (rounds : List (List ProducedMessage)) (full queued : List ProducedMessage) : Prop where
  rounds_eq : attempts.map enqueued = rounds ++ [full]
  queued_eq : queued = rounds.flatten ++ full
  prefixes : ∀ trace ∈ attempts, PrefixOf crates sheeps trace
  partly : ∀ round ∈ rounds, round.length < sheeps.length
  wholly : full.length = sheeps.length
  count : ∀ i < sheeps.length,
    (copies i (rounds ++ [full])).length = 1 + (rounds.map List.length).countP (i < ·)
  antitone : ∀ i j, i ≤ j →
    (copies j (rounds ++ [full])).length ≤ (copies i (rounds ++ [full])).length
  same : ∀ i sheep, sheeps[i]? = some sheep → ∀ message ∈ copies i (rounds ++ [full]),
    CopyOf crates sheep message ∧ (sheep.time ≠ none →
      ∀ other ∈ copies i (rounds ++ [full]), message.payload = other.payload)

end Spec

/-! ## One attempt -/

section Attempt

variable {crates : Crates} {state : AppState} {headers : HeaderMap} {body : Bytes}
  {events : List Value} {sheeps : List Sheep}

theorem plan_of_valid (media : IsBatch headers) (batch : BatchOf crates body state.maxBatchEvents events)
    (accepted : List.Forall₂ (Accepts crates) events sheeps) :
    plan crates state headers body = .ok sheeps := by
  obtain ⟨read, nonempty, within⟩ := batch
  rw [plan_batch crates media]
  exact (planBatch_eq_ok_iff crates).mpr ⟨events, read, nonempty, within, accepted⟩

/-- An accepted request was within the body limit. -/
theorem within_of_accepted {trace : List (Event Effect Effect.Answer)} {response : Response}
    (served : Serves crates state headers (.whole body) trace response) (accepted : response.status = 202) :
    body.length ≤ defaultBodyLimit := by
  have within {sent : Bytes} (buffered : bufferBody (.whole body) = .ok sent) :
      body.length ≤ defaultBodyLimit := by
    obtain ⟨⟨⟩, within⟩ := bufferBody_eq_ok_iff.mp buffered
    exact within
  cases served with
  | answered ending =>
      cases ending with
      | rejected unbuffered => exact absurd accepted (Rejection.status crates _).1
      | refused buffered planned => exact within buffered
      | published buffered planned now => exact within buffered
      | failed buffered planned now e => exact within buffered
  | caught ending => exact absurd (show (500 : Nat) = 202 from accepted) (by decide)

/-- One attempt at a batch that plans to publish `sheeps`. -/
theorem attempt_of_plan (planned : plan crates state headers body = .ok sheeps)
    (within : body.length ≤ defaultBodyLimit) {trace : List (Event Effect Effect.Answer)}
    {response : Response} (served : Serves crates state headers (.whole body) trace response) :
    PrefixOf crates sheeps trace ∧
      (response.status = 202 ∧ (enqueued trace).length = sheeps.length ∨
        response.status ≠ 202 ∧ (enqueued trace).length < sheeps.length) := by
  have only {sheeps' : List Sheep} (planned' : PlannedAs crates state headers (.whole body) sheeps') :
      sheeps' = sheeps := by
    obtain ⟨body', buffered, planned'⟩ := planned'
    cases (bufferBody_eq_ok_iff.mp buffered).1
    rw [planned, Except.ok.injEq] at planned'
    exact planned'.symm
  rcases served_went served with ⟨-, -, -, impossible⟩ |
    ⟨sheeps', now, planned', read, called, status⟩ |
    ⟨done, sheep, rest, now, e, planned', read, called, rfl⟩
  · exact absurd ⟨sheeps, body, bufferBody_whole within, planned⟩ impossible
  · cases only planned'
    have queued := enqueued_of_accepted called
    refine ⟨⟨now, read, ?_⟩, .inl ⟨status, by rw [queued, List.length_map]⟩⟩
    rw [queued, List.length_map, List.take_length]
  · cases only planned'
    have queued := enqueued_of_failed called
    refine ⟨⟨now, read, ?_⟩, .inr ⟨(publishError_status e).2.2.1, ?_⟩⟩
    · rw [queued, List.length_map, List.take_left]
    · rw [queued, List.length_map, List.length_append, List.length_cons]
      omega

end Attempt

/-! ## All attempts -/

section Attempts

variable {crates : Crates} {sheeps : List Sheep}

/-- The messages of a prefix at position `i` are copies of its `i`-th event. -/
theorem PrefixOf.getElem? {trace : List (Event Effect Effect.Answer)} {i : Nat} {sheep : Sheep}
    {message : ProducedMessage} (whole : PrefixOf crates sheeps trace) (at_i : sheeps[i]? = some sheep)
    (found : (enqueued trace)[i]? = some message) : ∃ now, message = messageAt crates now sheep := by
  obtain ⟨now, -, queued⟩ := whole
  have inside : i < (enqueued trace).length := (List.getElem?_eq_some_iff.mp found).1
  rw [queued, List.getElem?_map, List.getElem?_take_of_lt inside, at_i] at found
  exact ⟨now, (Option.some.inj found).symm⟩

/-- **What the queue holds after all attempts**, from what each attempt left. -/
theorem retried_of_attempts {attempts : List (List (Event Effect Effect.Answer))}
    {last : List (Event Effect Effect.Answer)} {queued : List ProducedMessage}
    (queued_eq : queued = ((attempts ++ [last]).map enqueued).flatten)
    (prefixes : ∀ trace ∈ attempts ++ [last], PrefixOf crates sheeps trace)
    (partly : ∀ trace ∈ attempts, (enqueued trace).length < sheeps.length)
    (wholly : (enqueued last).length = sheeps.length) :
    Retried crates sheeps (attempts ++ [last]) (attempts.map enqueued) (enqueued last) queued := by
  have rounds_eq : (attempts ++ [last]).map enqueued = attempts.map enqueued ++ [enqueued last] := by
    rw [List.map_append]
    rfl
  have copied : ∀ i sheep, sheeps[i]? = some sheep →
      ∀ message ∈ copies i (attempts.map enqueued ++ [enqueued last]),
        ∃ now, message = messageAt crates now sheep := by
    intro i sheep at_i message member
    rw [← rounds_eq, mem_copies] at member
    obtain ⟨round, inside, found⟩ := member
    obtain ⟨trace, attempted, rfl⟩ := List.mem_map.mp inside
    exact (prefixes trace attempted).getElem? at_i found
  refine ⟨rounds_eq, ?_, prefixes, ?_, wholly, ?_, ?_, ?_⟩
  · rw [queued_eq, rounds_eq, List.flatten_append, List.flatten_singleton]
  · intro round member
    obtain ⟨trace, attempted, rfl⟩ := List.mem_map.mp member
    exact partly trace attempted
  · intro i inside
    exact length_copies_snoc (by omega)
  · intro i j before
    exact length_copies_antitone before _
  · intro i sheep at_i message member
    obtain ⟨now, rfl⟩ := copied i sheep at_i message member
    refine ⟨⟨rfl, rfl, _, rfl⟩, ?_⟩
    intro own other member'
    obtain ⟨later, rfl⟩ := copied i sheep at_i other member'
    exact messageAt_payload_of_time own now later

end Attempts

/-- The client's part of a run: its attempts at one request, whatever the others do. -/
theorem attempts_of_run {ι σ : Type} [DecidableEq ι] {crates : Crates} {state : AppState}
    {queue : Queue σ} {start : σ} {headers : HeaderMap} {body : Bytes} {client : ι} {n : Nat}
    {threads : ι → Prog Effect Effect.Answer (List Response)} {responses : List Response}
    (submits : threads client = (serve crates state (sheepsRequest headers (.whole body))).times n)
    {history : History ι Effect Effect.Answer}
    {c : System ι (Shared ι σ) Effect Effect.Answer (List Response)}
    (run : Run (queue.world ι) ⟨⟨start, []⟩, threads⟩ history c)
    (ended : c.threads client = .pure responses) :
    ∃ attempts, History.of client history = attempts.flatten ∧
      List.Forall₂ (Serves crates state headers (.whole body)) attempts responses ∧
      logOf client c.shared.log = (attempts.map enqueued).flatten := by
  have whole : Prog.Returns (threads client) _ _ := run.returns ended
  rw [submits] at whole
  obtain ⟨attempts, -, trace, related⟩ := Prog.times_returns_iff.mp whole
  refine ⟨attempts, trace, related.imp fun _ _ => serve_returns_iff.mp, ?_⟩
  rw [logOf_run run rfl client, trace]
  clear trace related whole
  induction attempts with
  | nil => rfl
  | cons first rest ih => rw [List.flatten_cons, enqueued_append, ih]; rfl

/-- **Retrying a whole batch is at-least-once, with an exact duplicate count.** -/
theorem retried_batch {ι σ : Type} [DecidableEq ι] (crates : Crates) (state : AppState)
    (queue : Queue σ) (start : σ) {headers : HeaderMap} {body : Bytes} {events : List Value}
    {sheeps : List Sheep} (media : IsBatch headers)
    (batch : BatchOf crates body state.maxBatchEvents events)
    (accepted : List.Forall₂ (Accepts crates) events sheeps) {client : ι}
    {threads : ι → Prog Effect Effect.Answer (List Response)} {failures : List Response}
    {last : Response}
    (submits : threads client =
      (serve crates state (sheepsRequest headers (.whole body))).times (failures.length + 1))
    {history : History ι Effect Effect.Answer}
    {c : System ι (Shared ι σ) Effect Effect.Answer (List Response)}
    (run : Run (queue.world ι) ⟨⟨start, []⟩, threads⟩ history c)
    (ended : c.threads client = .pure (failures ++ [last]))
    (failed : ∀ response ∈ failures, response.status = 503 ∨ response.status = 500)
    (succeeded : last.status = 202) :
    ∃ attempts rounds full, History.of client history = attempts.flatten ∧
      List.Forall₂ (Serves crates state headers (.whole body)) attempts (failures ++ [last]) ∧
      Retried crates sheeps attempts rounds full (logOf client c.shared.log) := by
  obtain ⟨attempts, trace, related, queued⟩ := attempts_of_run submits run ended
  have planned := plan_of_valid media batch accepted
  have before := List.forall₂_take_append attempts failures [last] related
  have after := List.forall₂_drop_append attempts failures [last] related
  have parts := (List.take_append_drop failures.length attempts).symm
  generalize attempts.take failures.length = earlier at before parts
  generalize attempts.drop failures.length = more at after parts
  subst parts
  cases after with
  | @cons final _ _ _ served none =>
      cases none
      have within := within_of_accepted served succeeded
      refine ⟨_, _, _, trace, related, retried_of_attempts queued ?_ ?_ ?_⟩
      · intro attempt member
        obtain ⟨response, -, answered⟩ := related_of_mem related member
        exact (attempt_of_plan planned within answered).1
      · intro attempt member
        obtain ⟨response, inside, answered⟩ := related_of_mem before member
        rcases (attempt_of_plan planned within answered).2 with ⟨accepted, -⟩ | ⟨-, fewer⟩
        · rcases failed response inside with full | broken <;> omega
        · exact fewer
      · rcases (attempt_of_plan planned within served).2 with ⟨-, all⟩ | ⟨refused, -⟩
        · exact all
        · exact absurd succeeded refused

/-! ## A queue with one hiccup -/

/-- A queue that is full at its second call, and never otherwise. -/
def hiccup : Queue Nat where
  answers n _ answer n' := n' = n + 1 ∧ answer = if n = 1 then .error .queueFull else .ok ()
  drifts _ _ := False

theorem hiccup_produces (n : Nat) (log : List (Unit × ProducedMessage)) (crates : Crates)
    (sheep : Sheep) (answer : Except ProduceError Unit)
    (turn : answer = if n = 1 then .error .queueFull else .ok ()) :
    (hiccup.world Unit).answer () ⟨n, log⟩ (.produce (messageAt crates .epoch sheep)) answer
      ⟨n + 1, log ++ logged () (messageAt crates .epoch sheep, answer)⟩ :=
  ⟨⟨rfl, turn⟩, rfl⟩

theorem hiccup_reads (shared : Shared Unit Nat) :
    (hiccup.world Unit).answer () shared .now OffsetDateTime.epoch shared :=
  show shared = shared from rfl

/-- Two attempts at a batch of two: the first stops after one event. -/
theorem hiccup_run {crates : Crates} {state : AppState} {headers : HeaderMap} {body : Bytes}
    {first second : Sheep} (within : body.length ≤ defaultBodyLimit)
    (planned : plan crates state headers body = .ok [first, second]) :
    ∃ (history : History Unit Effect Effect.Answer)
      (c : System Unit (Shared Unit Nat) Effect Effect.Answer (List Response)),
      Run (hiccup.world Unit)
          ⟨⟨0, []⟩, fun _ => (serve crates state (sheepsRequest headers (.whole body))).times 2⟩ history c ∧
        c.threads () = .pure [(publishError .queueFull).rendered, ⟨202, [], .empty⟩] := by
  have stopped := @Ends.failed crates state headers (.whole body) body (bufferBody_whole within) [first] [] second
    planned .epoch .queueFull
  have went : Ends crates state headers (.whole body) _ (.ok ⟨202, [], .empty⟩) :=
    .published (bufferBody_whole within) planned .epoch
  have attempts := Prog.times_returns_iff.mpr ⟨[_, _], rfl, rfl,
    .cons (serve_returns_iff.mpr (.answered stopped))
      (.cons (serve_returns_iff.mpr (.answered went)) .nil)⟩
  have answers := World.Answers.cons (hiccup_reads ⟨0, []⟩)
    (.cons (hiccup_produces _ _ crates first (.ok ()) rfl)
      (.cons (hiccup_produces _ _ crates second (.error .queueFull) rfl)
        (.cons (hiccup_reads _)
          (.cons (hiccup_produces _ _ crates first (.ok ()) rfl)
            (.cons (hiccup_produces _ _ crates second (.ok ()) rfl) (.nil _))))))
  exact ⟨_, _, Run.alone attempts answers, by simp only [Function.update_self]⟩

/-- Such a client on the reference crates leaves the first event twice, the second
once. -/
theorem retried_batch_hiccup :
    ∃ (history : History Unit Effect Effect.Answer)
      (c : System Unit (Shared Unit Nat) Effect Effect.Answer (List Response)),
      Run (hiccup.world Unit) ⟨⟨0, []⟩, fun _ => (serve reference ⟨100⟩ (sheepsRequest
          (batchRequest [sampleEvent, sampleEvent]).1
          (.whole (batchRequest [sampleEvent, sampleEvent]).2))).times 2⟩ history c ∧
        ∃ attempts rounds full, Retried reference [sampleSheep, sampleSheep] attempts rounds full
          (logOf () c.shared.log) := by
  have within : (batchRequest [sampleEvent, sampleEvent]).2.length ≤ defaultBodyLimit := by
    decide +kernel
  have read : reference.fromSlice (batchRequest [sampleEvent, sampleEvent]).2 =
      some (.array [sampleEvent, sampleEvent]) :=
    reference_reads ⟨sampleEvent_canonical, sampleEvent_canonical, trivial⟩ (by decide)
  have shape : BatchOf reference (batchRequest [sampleEvent, sampleEvent]).2
      (⟨100⟩ : AppState).maxBatchEvents [sampleEvent, sampleEvent] :=
    ⟨read, List.cons_ne_nil _ _, show 2 ≤ 100 by decide⟩
  have accepted : List.Forall₂ (Accepts reference) [sampleEvent, sampleEvent]
      [sampleSheep, sampleSheep] :=
    .cons (sampleEvent_accepted _) (.cons (sampleEvent_accepted _) .nil)
  obtain ⟨history, c, run, ended⟩ := hiccup_run within
    (@plan_of_valid reference ⟨100⟩ _ _ _ _ contentType_batch shape accepted)
  have failures : ∀ response ∈ [(publishError .queueFull).rendered],
      response.status = 503 ∨ response.status = 500 := by
    intro response member
    rw [List.mem_singleton.mp member]
    exact .inl rfl
  obtain ⟨attempts, rounds, full, -, -, retried⟩ := @retried_batch Unit Nat _ reference ⟨100⟩
    hiccup 0 _ _ _ _ contentType_batch shape accepted () _ [(publishError .queueFull).rendered] _
    (congrArg (Prog.times _) rfl) history c run ended failures rfl
  exact ⟨history, c, run, attempts, rounds, full, retried⟩

end CountingSheep.Ingest
