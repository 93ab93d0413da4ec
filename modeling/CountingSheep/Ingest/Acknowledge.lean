/-
# CountingSheep.Ingest.Acknowledge — what a response says about the queue

Requests share a queue and interleave at every effect. `PublishesPrefix` is what
holds of a request at every moment: what it has put in the queue are the messages
of its first events, in order, stamped with its one clock reading. `Acknowledged`
is what its response adds: how many there are, and why no more.

The argument has three layers: `served_publishes` and `served_acknowledged` read
both facts off the ways a request can end; `PublishesPrefix.of_append` carries the
first back to an unfinished request; `logOf_run` carries both to the shared queue.
-/
import CountingSheep.Ingest.Queue
import CountingSheep.Ingest.Submission

namespace CountingSheep.Ingest

open Rust Http
open Theory (Prog Event System History Run)
open Theory.Json (Value Canonical depth)

set_option autoImplicit false

section Spec

variable (crates : Crates)

/-- `message` is the message of `event`, accepted and stamped at `now`. -/
def Carries (now : OffsetDateTime) (event : Value) (message : ProducedMessage) : Prop :=
  ∃ sheep, Accepts crates event sheep ∧ message = messageAt crates now sheep

/-- The queued messages are those of the first events, in order, each once, all
stamped with the one clock reading of the trace. -/
def PublishesPrefix (events : List Value) (trace : List (Event Effect Effect.Answer))
    (queued : List ProducedMessage) : Prop :=
  queued = [] ∨ ∃ now, readings trace = [now] ∧
    List.Forall₂ (Carries crates now) (events.take queued.length) queued

/-- Every call up to the one for the first event not in the queue was accepted,
and that one failed with `e` and was the last. -/
def FailedAt (events : List Value) (trace : List (Event Effect Effect.Answer))
    (queued : List ProducedMessage) (e : ProduceError) : Prop :=
  ∃ now event message, readings trace = [now] ∧ events[queued.length]? = some event ∧
    Carries crates now event message ∧
    calls trace = queued.map (fun message => (message, .ok ())) ++ [(message, .error e)]

/-- What a response says about the queue. -/
structure Acknowledged (events : List Value) (trace : List (Event Effect Effect.Answer))
    (queued : List ProducedMessage) (response : Response) : Prop where
  accepted_iff : response.status = 202 ↔
    events ≠ [] ∧ queued.length = events.length ∧ ∀ call ∈ calls trace, call.2 = .ok ()
  client_error : 400 ≤ response.status → response.status < 500 → calls trace = []
  failed : ∀ call ∈ calls trace, ∀ e, call.2 = .error e → FailedAt crates events trace queued e ∧
    (response.status = 503 ↔ e = .queueFull) ∧ (response.status = 500 ↔ ∃ detail, e = .backend detail)
  unavailable : response.status = 503 → FailedAt crates events trace queued .queueFull
  internal : response.status = 500 → calls trace = [] ∨
    ∃ detail, FailedAt crates events trace queued (.backend detail)

end Spec

/-! ## From the ways a request can end -/

section Trace

variable {crates : Crates} {state : AppState} {headers : HeaderMap} {incoming : Incoming}

theorem carries_of_accepts {events : List Value} {sheeps : List Sheep}
    (accepted : List.Forall₂ (Accepts crates) events sheeps) (now : OffsetDateTime) :
    List.Forall₂ (Carries crates now) events (sheeps.map (messageAt crates now)) := by
  rw [List.forall₂_map_right_iff]
  exact accepted.imp fun _ sheep taken => ⟨sheep, taken, rfl⟩

/-- The events of a request split where its accepted events do. -/
theorem accepts_split {events : List Value} {done rest : List Sheep} {sheep : Sheep}
    (accepted : List.Forall₂ (Accepts crates) events (done ++ sheep :: rest)) :
    ∃ first event later, events = first ++ event :: later ∧
      List.Forall₂ (Accepts crates) first done ∧ Accepts crates event sheep := by
  have front := List.forall₂_take_append events done (sheep :: rest) accepted
  have back := List.forall₂_drop_append events done (sheep :: rest) accepted
  have whole := (List.take_append_drop done.length events).symm
  generalize events.take done.length = first at front whole
  generalize events.drop done.length = more at back whole
  cases back with
  | @cons event _ later _ head tail => exact ⟨first, event, later, whole, front, head⟩

theorem PublishesPrefix.of_append {events : List Value} {first later : List (Event Effect Effect.Answer)}
    (whole : PublishesPrefix crates events (first ++ later) (enqueued (first ++ later)))
    (clock : calls first ≠ [] → readings first ≠ []) :
    PublishesPrefix crates events first (enqueued first) := by
  by_cases called : calls first = []
  · left
    rw [enqueued, called]
    rfl
  · rcases whole with empty | ⟨now, read, carried⟩
    · left
      rw [enqueued_append] at empty
      exact (List.append_eq_nil_iff.mp empty).1
    · right
      refine ⟨now, ?_, ?_⟩
      · rw [readings_append] at read
        rcases List.append_eq_singleton_iff.mp read with ⟨none, -⟩ | ⟨one, -⟩
        · exact absurd none (clock called)
        · exact one
      · rw [enqueued_append, List.length_append] at carried
        have front := List.forall₂_take (enqueued first).length carried
        rw [List.take_take, List.take_left, Nat.min_eq_left (Nat.le_add_right _ _)] at front
        exact front

/-- The body can be buffered, and these are the events to publish. -/
def PlannedAs (crates : Crates) (state : AppState) (headers : HeaderMap) (incoming : Incoming)
    (sheeps : List Sheep) : Prop :=
  ∃ body, bufferBody incoming = .ok body ∧ plan crates state headers body = .ok sheeps

theorem plannedAs_accepts {sheeps : List Sheep} (planned : PlannedAs crates state headers incoming sheeps) :
    List.Forall₂ (Accepts crates) (submittedEvents crates headers incoming) sheeps ∧ sheeps ≠ [] := by
  obtain ⟨body, buffered, planned⟩ := planned
  rw [submittedEvents_of_buffered crates headers buffered]
  exact plan_accepts crates planned

theorem not_plannedAs_of_halt {body : Bytes} {halt : Halt} (buffered : bufferBody incoming = .ok body)
    (halted : plan crates state headers body = .error halt) :
    ¬ ∃ sheeps, PlannedAs crates state headers incoming sheeps := by
  rintro ⟨sheeps, body', buffered', planned⟩
  rw [buffered] at buffered'
  cases buffered'
  rw [halted] at planned
  cases planned

/-- How a request went, by its calls: none made, all accepted, or one failed. -/
theorem served_went {trace : List (Event Effect Effect.Answer)} {response : Response}
    (served : Serves crates state headers incoming trace response) :
    (calls trace = [] ∧ response.status ≠ 202 ∧ response.status ≠ 503 ∧
      ¬ ∃ sheeps, PlannedAs crates state headers incoming sheeps) ∨
    (∃ sheeps now, PlannedAs crates state headers incoming sheeps ∧ readings trace = [now] ∧
      calls trace = sheeps.map (fun sheep => (messageAt crates now sheep, .ok ())) ∧
      response.status = 202) ∨
    ∃ done sheep rest now e, PlannedAs crates state headers incoming (done ++ sheep :: rest) ∧
      readings trace = [now] ∧
      calls trace = done.map (fun sheep => (messageAt crates now sheep, .ok ())) ++
        [(messageAt crates now sheep, .error e)] ∧ response = (publishError e).rendered := by
  cases served with
  | answered ending =>
      cases ending with
      | @rejected rejection unbuffered =>
          obtain ⟨notAccepted, notFull, -⟩ := rejection.status crates
          refine .inl ⟨rfl, notAccepted, notFull, ?_⟩
          rintro ⟨sheeps, body, buffered, -⟩
          rw [unbuffered] at buffered
          cases buffered
      | refused buffered planned =>
          have refusal := plan_refusal crates planned
          obtain ⟨lower, upper, -⟩ := refusal.client_error
          exact .inl ⟨calls_reports _, by omega, by omega, not_plannedAs_of_halt buffered planned⟩
      | @published body buffered sheeps planned now =>
          refine .inr (.inl ⟨sheeps, now, ⟨body, buffered, planned⟩, ?_,
            calls_produced crates now sheeps, rfl⟩)
          exact congrArg _ (readings_produced crates now sheeps)
      | @failed body buffered done rest sheep planned now e =>
          refine .inr (.inr ⟨done, sheep, rest, now, e, ⟨body, buffered, planned⟩, ?_, ?_, rfl⟩)
          · change now :: readings ((done.map fun sheep => produced crates now sheep (.ok ())) ++
              ⟨.produce _, .error e⟩ :: (publishError e).reports) = _
            rw [readings_append, readings_produced]
            exact congrArg _ (readings_reports _)
          · change calls ((done.map fun sheep => produced crates now sheep (.ok ())) ++
              ⟨.produce _, .error e⟩ :: (publishError e).reports) = _
            rw [calls_append, calls_produced]
            exact congrArg _ (congrArg _ (calls_reports _))
  | @caught events panic ending =>
      cases ending with
      | panicked buffered planned =>
          exact .inl ⟨rfl, show 500 ≠ 202 by decide, show 500 ≠ 503 by decide,
            not_plannedAs_of_halt buffered planned⟩

/-- The messages of a trace whose calls were all accepted. -/
theorem enqueued_of_accepted {trace : List (Event Effect Effect.Answer)} {now : OffsetDateTime}
    {sheeps : List Sheep}
    (called : calls trace = sheeps.map fun sheep => (messageAt crates now sheep, .ok ())) :
    enqueued trace = sheeps.map (messageAt crates now) := by
  have messages := acceptedMessages_map_ok (sheeps.map (messageAt crates now))
  rw [List.map_map] at messages
  rw [enqueued, called]
  exact messages

/-- The messages of a trace whose last call failed. -/
theorem enqueued_of_failed {trace : List (Event Effect Effect.Answer)} {now : OffsetDateTime}
    {done : List Sheep} {message : ProducedMessage} {e : ProduceError}
    (called : calls trace = done.map (fun sheep => (messageAt crates now sheep, .ok ())) ++
      [(message, .error e)]) : enqueued trace = done.map (messageAt crates now) := by
  have messages := acceptedMessages_map_ok (done.map (messageAt crates now))
  rw [List.map_map] at messages
  rw [enqueued, called, List.filterMap_append]
  exact (List.append_nil _).trans messages

theorem served_publishes {trace : List (Event Effect Effect.Answer)} {response : Response}
    (served : Serves crates state headers incoming trace response) :
    PublishesPrefix crates (submittedEvents crates headers incoming) trace (enqueued trace) := by
  rcases served_went served with ⟨none, -⟩ | ⟨sheeps, now, planned, read, called, -⟩ |
    ⟨done, sheep, rest, now, e, planned, read, called, -⟩
  · left
    rw [enqueued, none]
    rfl
  · right
    have accepted := (plannedAs_accepts planned).1
    have queued := enqueued_of_accepted called
    refine ⟨now, read, ?_⟩
    rw [queued, List.length_map, ← accepted.length_eq, List.take_length]
    exact carries_of_accepts accepted now
  · right
    obtain ⟨first, event, later, split, front, -⟩ := accepts_split (plannedAs_accepts planned).1
    have queued := enqueued_of_failed called
    refine ⟨now, read, ?_⟩
    rw [queued, List.length_map, ← front.length_eq, split, List.take_left]
    exact carries_of_accepts front now

/-- A request that called nothing, and was not answered as if it had. -/
theorem acknowledged_uncalled {events : List Value} {trace : List (Event Effect Effect.Answer)}
    {response : Response} (none : calls trace = []) (notAccepted : response.status ≠ 202)
    (notFull : response.status ≠ 503) :
    Acknowledged crates events trace (enqueued trace) response := by
  have nothing : enqueued trace = [] := by rw [enqueued, none]; rfl
  refine ⟨?_, fun _ _ => none, ?_, fun full => absurd full notFull, fun _ => .inl none⟩
  · rw [nothing]
    constructor
    · intro accepted
      exact absurd accepted notAccepted
    · rintro ⟨nonempty, empty, -⟩
      exact absurd (List.length_eq_zero_iff.mp empty.symm) nonempty
  · intro call member
    rw [none] at member
    cases member

/-- A request whose calls were all accepted. -/
theorem acknowledged_published {events : List Value} {sheeps : List Sheep} {now : OffsetDateTime}
    {trace : List (Event Effect Effect.Answer)} {response : Response}
    (accepted : List.Forall₂ (Accepts crates) events sheeps) (nonempty : sheeps ≠ [])
    (called : calls trace = sheeps.map fun sheep => (messageAt crates now sheep, .ok ()))
    (status : response.status = 202) :
    Acknowledged crates events trace (enqueued trace) response := by
  have queued := enqueued_of_accepted called
  have answers : ∀ call ∈ calls trace, call.2 = .ok () := by
    rw [called]
    intro call member
    obtain ⟨sheep, -, rfl⟩ := List.mem_map.mp member
    rfl
  refine ⟨?_, ?_, ?_, ?_, ?_⟩
  · refine ⟨fun _ => ⟨?_, ?_, answers⟩, fun _ => status⟩
    · intro empty
      rw [empty] at accepted
      exact nonempty (List.forall₂_nil_left_iff.mp accepted)
    · rw [queued, List.length_map, accepted.length_eq]
  · intro lower upper
    omega
  · intro call member e failed
    rw [answers call member] at failed
    cases failed
  · intro full
    omega
  · intro broken
    omega

/-- A request whose last call failed. -/
theorem acknowledged_failed {events : List Value} {done rest : List Sheep} {sheep : Sheep}
    {now : OffsetDateTime} {e : ProduceError} {trace : List (Event Effect Effect.Answer)}
    (accepted : List.Forall₂ (Accepts crates) events (done ++ sheep :: rest))
    (read : readings trace = [now])
    (called : calls trace = done.map (fun sheep => (messageAt crates now sheep, .ok ())) ++
      [(messageAt crates now sheep, .error e)]) :
    Acknowledged crates events trace (enqueued trace) (publishError e).rendered := by
  obtain ⟨first, event, later, rfl, front, last⟩ := accepts_split accepted
  obtain ⟨full, backend, notAccepted, server⟩ := publishError_status e
  have queued := enqueued_of_failed called
  have place : (enqueued trace).length = first.length := by
    rw [queued, List.length_map, front.length_eq]
  have failed : FailedAt crates (first ++ event :: later) trace (enqueued trace) e := by
    refine ⟨now, event, _, read, ?_, ⟨sheep, last, rfl⟩, ?_⟩
    · rw [place, List.getElem?_append_right (Nat.le_refl _), Nat.sub_self]
      rfl
    · rw [called, queued, List.map_map]
      rfl
  refine ⟨?_, ?_, ?_, ?_, ?_⟩
  · refine ⟨fun accepted => absurd accepted notAccepted, ?_⟩
    rintro ⟨-, whole, -⟩
    rw [place, List.length_append, List.length_cons] at whole
    omega
  · intro lower upper
    omega
  · intro call member e' same
    rw [called] at member
    rcases List.mem_append.mp member with accepted | last
    · obtain ⟨sheep, -, rfl⟩ := List.mem_map.mp accepted
      cases same
    · cases List.mem_singleton.mp last
      cases same
      exact ⟨failed, full, backend⟩
  · intro unavailable
    exact full.mp unavailable ▸ failed
  · intro broken
    obtain ⟨detail, rfl⟩ := backend.mp broken
    exact .inr ⟨detail, failed⟩

theorem served_acknowledged {trace : List (Event Effect Effect.Answer)} {response : Response}
    (served : Serves crates state headers incoming trace response) :
    Acknowledged crates (submittedEvents crates headers incoming) trace (enqueued trace) response := by
  rcases served_went served with ⟨none, notAccepted, notFull, -⟩ |
    ⟨sheeps, now, planned, read, called, status⟩ |
    ⟨done, sheep, rest, now, e, planned, read, called, rfl⟩
  · exact acknowledged_uncalled none notAccepted notFull
  · obtain ⟨accepted, nonempty⟩ := plannedAs_accepts planned
    exact acknowledged_published accepted nonempty called status
  · exact acknowledged_failed (plannedAs_accepts planned).1 read called

/-- A request reads the clock before it calls `produce`. -/
theorem served_clock {first later : List (Event Effect Effect.Answer)} {response : Response}
    (served : Serves crates state headers incoming (first ++ later) response)
    (called : calls first ≠ []) : readings first ≠ [] := by
  have head : calls (first ++ later) ≠ [] → ∃ now rest, first ++ later = ⟨.now, now⟩ :: rest := by
    generalize first ++ later = trace at served
    intro made
    cases served with
    | answered ending =>
        cases ending with
        | rejected unbuffered => exact absurd rfl made
        | refused buffered planned => exact absurd (calls_reports _) made
        | published buffered planned now => exact ⟨now, _, rfl⟩
        | failed buffered planned now e => exact ⟨now, _, rfl⟩
    | caught ending =>
        cases ending with
        | panicked buffered planned => exact absurd rfl made
  obtain ⟨now, rest, starts⟩ := head (by rw [calls_append]; exact List.append_ne_nil_of_left_ne_nil called _)
  cases first with
  | nil => exact absurd rfl called
  | cons event first =>
      cases starts
      exact List.cons_ne_nil _ _

end Trace

/-! ## Any number of requests on one queue -/

section

variable {ι σ : Type} [DecidableEq ι]

/-- Requests at their start, sharing a queue into which none has put anything. -/
def submitted (crates : Crates) (state : AppState) (start : σ) (requests : ι → HeaderMap × Incoming) :
    System ι (Shared ι σ) Effect Effect.Answer Response where
  shared := ⟨start, []⟩
  threads r := serve crates state (sheepsRequest (requests r).1 (requests r).2)

end

/-! ## Two requests, one slot -/

/-- A queue with room for `capacity` messages, drained one at a time. -/
def boundedQueue (capacity : Nat) : Queue Nat where
  answers n _ answer n' := match answer with
    | .ok () => n < capacity ∧ n' = n + 1
    | .error e => ¬ n < capacity ∧ e = .queueFull ∧ n' = n
  drifts n n' := n = n' + 1

/-- The same event in two requests, with one slot between them: the first is
accepted, the second is turned away. -/
theorem one_slot_run {crates : Crates} {state : AppState} {headers : HeaderMap} {body : Bytes}
    {sheep : Sheep} (within : body.length ≤ defaultBodyLimit)
    (planned : plan crates state headers body = .ok [sheep]) :
    ∃ (history : History Bool Effect Effect.Answer)
      (c : System Bool (Shared Bool Nat) Effect Effect.Answer Response),
      Run ((boundedQueue 1).world Bool) (submitted crates state 0 fun _ => (headers, .whole body))
          history c ∧ c.threads false = .pure (publishError .queueFull).rendered := by
  have accepted : ((boundedQueue 1).world Bool).Answers true ⟨0, []⟩
      (⟨.now, .epoch⟩ :: [sheep].map fun sheep => produced crates .epoch sheep (.ok ()))
      ⟨1, [(true, messageAt crates .epoch sheep)]⟩ :=
    .cons rfl (.cons ⟨⟨Nat.zero_lt_one, rfl⟩, rfl⟩ (.nil _))
  have refused : ((boundedQueue 1).world Bool).Answers false
      ⟨1, [(true, messageAt crates .epoch sheep)]⟩
      [⟨.now, .epoch⟩, produced crates .epoch sheep (.error .queueFull)]
      ⟨1, [(true, messageAt crates .epoch sheep)]⟩ :=
    .cons rfl (.cons ⟨⟨Nat.lt_irrefl 1, rfl, rfl⟩, rfl⟩ (.nil _))
  have full : Ends crates state headers (.whole body)
      [⟨.now, .epoch⟩, produced crates .epoch sheep (.error .queueFull)]
      (.ok (publishError .queueFull).rendered) :=
    @Ends.failed crates state headers (.whole body) body (bufferBody_whole within) [] [] sheep planned
      .epoch .queueFull
  have first := Queue.serves
    (c := submitted crates state 0 fun _ => (headers, .whole body)) (r := true) rfl
    (.answered (.published (bufferBody_whole within) planned .epoch)) accepted
  have second := Queue.serves (r := false) (s := ⟨1, [(true, messageAt crates .epoch sheep)]⟩)
    (c := ⟨_, Function.update (submitted crates state 0 fun _ : Bool => (headers, .whole body)).threads true
      (.pure ⟨202, [], .empty⟩)⟩) rfl (.answered full) refused
  exact ⟨_, _, first.trans second, by simp only [Function.update_self]⟩

end CountingSheep.Ingest
