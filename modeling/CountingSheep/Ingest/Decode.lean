/-
# CountingSheep.Ingest.Decode — a published message, read back

A consumer reads the payload of a message as JSON and takes its members, a `null`
data as absent (`decode`). `payloadOf` is the payload as a function of the event and
of the seconds it is published with; it is no larger and no deeper than the event.

* `payload_messageAt`: the payload of a message is the text of that object.
* `messageAt_eq_iff`: two messages are equal exactly when their events held the same.
* `published_decodes`: what the consumer gets is what the accepted event held under
  those names, with the floats of its data as the reader gives them back, and nothing
  else of the event reaches the message.
* `published_float_moves`: `serde_json` does not give every float back.
-/
import CountingSheep.Ingest.Submission
import CountingSheep.Rust.BestEffort

namespace CountingSheep.Ingest

open Rust
open Theory.JsonText (reread)
open Theory.Json (Value Canonical CanonicalMembers Ascending depth depthMembers
  canonicalMembers_lookup depth_lookup_le mapFloats mapFloatsMembers isNull_mapFloats depth_mapFloats)

set_option autoImplicit false

/-! ## The consumer -/

/-- A message as its consumer sees it. -/
@[ext] structure Decoded where
  key : String
  id : String
  type : String
  source : String
  subject : String
  specversion : String
  data : Option Value
  time : Int
  receivedAt : Int

def stringMember (obj : Members) (name : String) : Option String :=
  match obj.lookup name with
  | some (.string s) => some s
  | _ => none

def integerMember (obj : Members) (name : String) : Option Int :=
  match obj.lookup name with
  | some (.number (.int n)) => some n
  | _ => none

/-- Read a message back, its payload with `read`. -/
def decode (read : Bytes → Option Value) (message : ProducedMessage) : Option Decoded := do
  let payload ← read message.payload
  let obj ← payload.asObject
  return {
    key := message.key
    id := ← stringMember obj "id"
    type := ← stringMember obj "type"
    source := ← stringMember obj "source"
    subject := ← stringMember obj "subject"
    specversion := message.specversion
    data := (obj.lookup "data").filter fun v => !v.isNull
    time := ← integerMember obj "time"
    receivedAt := message.receivedAtUnix }

/-- `read` gives back what the crate wrote of any value nested no deeper than `limit`, a
float as `reread` says. -/
def Reads (crates : Crates) (limit : Nat) (reread : BitVec 64 → Option (BitVec 64))
    (read : Bytes → Option Value) : Prop :=
  ∀ v, Canonical v → depth v ≤ limit → read (crates.toVec v) = mapFloats reread v

/-- The text that the crate writes of a value nested no deeper than `limit` is of no other. -/
def Writes (crates : Crates) (limit : Nat) : Prop :=
  Set.InjOn crates.toVec {v | Canonical v ∧ depth v ≤ limit}

/-! ## What it should get -/

/-- The data of an event, `null` where there is none. -/
def eventData (obj : Members) : Value := (obj.lookup "data").getD .null

/-- The reader gives every float in the data of the event back. -/
def Restored (reread : BitVec 64 → Option (BitVec 64)) (obj : Members) : Prop :=
  mapFloats reread (eventData obj) = some (eventData obj)

/-- `decoded` is what the event `obj`, accepted as `sheep` at clock reading `now`,
holds, its data reread. -/
structure Restores (reread : BitVec 64 → Option (BitVec 64)) (obj : Members) (sheep : Sheep)
    (now : OffsetDateTime) (decoded : Decoded) : Prop where
  key : obj.lookup "subject" = some (.string decoded.key)
  id : obj.lookup "id" = some (.string decoded.id)
  type : obj.lookup "type" = some (.string decoded.type)
  source : obj.lookup "source" = some (.string decoded.source)
  subject : obj.lookup "subject" = some (.string decoded.subject)
  specversion : obj.lookup "specversion" = some (.string decoded.specversion)
  data : ∀ v, decoded.data = some v ↔
    ∃ data, obj.lookup "data" = some data ∧ data ≠ .null ∧ mapFloats reread data = some v
  time : decoded.time = (sheep.time.getD now).unixTimestamp
  untimed : sheep.time = none ↔ obj.lookup "time" = none ∨ obj.lookup "time" = some .null
  receivedAt : decoded.receivedAt = now.unixTimestamp

/-- Two events, accepted at these clock readings, hold the same as far as a message tells: a `null`
data is none, and of the times the seconds count. -/
structure HoldsSame (obj : Members) (sheep : Sheep) (now : OffsetDateTime) (obj' : Members)
    (sheep' : Sheep) (now' : OffsetDateTime) : Prop where
  id : obj.lookup "id" = obj'.lookup "id"
  type : obj.lookup "type" = obj'.lookup "type"
  source : obj.lookup "source" = obj'.lookup "source"
  subject : obj.lookup "subject" = obj'.lookup "subject"
  specversion : obj.lookup "specversion" = obj'.lookup "specversion"
  data : eventData obj = eventData obj'
  time : (sheep.time.getD now).unixTimestamp = (sheep'.time.getD now').unixTimestamp
  receivedAt : now.unixTimestamp = now'.unixTimestamp

/-- The members of an event that a message depends on. -/
def publishedMembers : List String :=
  ["id", "type", "source", "subject", "specversion", "time", "data"]

/-! ## The payload as a function of the event -/

/-- The payload of the event `obj`, published with these seconds. -/
def payloadOf (obj : Members) (time : Int) : Value :=
  .object [
    ("data", eventData obj),
    ("id", (obj.lookup "id").getD .null),
    ("source", (obj.lookup "source").getD .null),
    ("subject", (obj.lookup "subject").getD .null),
    ("time", .number (.int time)),
    ("type", (obj.lookup "type").getD .null)]

section Shape

variable {obj : Members} {time : Int} {key : String}

theorem canonical_member (canonical : CanonicalMembers obj) (key : String) :
    Canonical ((obj.lookup key).getD .null) := by
  cases found : obj.lookup key with
  | none => exact trivial
  | some v => exact canonicalMembers_lookup canonical found

theorem depth_member_le (obj : Members) (key : String) :
    depth ((obj.lookup key).getD .null) ≤ depthMembers obj := by
  cases found : obj.lookup key with
  | none => exact Nat.zero_le _
  | some v => exact depth_lookup_le found

theorem payloadOf_canonical (canonical : Canonical (.object obj)) (lower : -2 ^ 63 ≤ time)
    (upper : time < 2 ^ 63) : Canonical (payloadOf obj time) := by
  have member := canonical_member canonical.2
  refine ⟨?_, member "data", member "id", member "source", member "subject", ?_, member "type", trivial⟩
  · simp only [Ascending, List.pairwise_cons, List.mem_cons, List.not_mem_nil,
      or_false, forall_eq_or_imp, forall_eq, IsEmpty.forall_iff, implies_true, List.Pairwise.nil,
      and_true]
    decide
  · change -2 ^ 63 ≤ time ∧ time < 2 ^ 64
    omega

theorem depth_payloadOf_le (obj : Members) (time : Int) : depth (payloadOf obj time) ≤ depth (.object obj) := by
  have member := depth_member_le obj
  have data : depth (eventData obj) ≤ depthMembers obj := member "data"
  simp only [payloadOf, depth, depthMembers, Nat.add_le_add_iff_right, max_le_iff, Nat.zero_le,
    and_true, true_and]
  exact ⟨data, member "id", member "source", member "subject", member "type"⟩

end Shape

/-! ## Accepted events -/

section Accepted

variable {crates : Crates} {obj obj' : Members} {sheep sheep' : Sheep}

/-- What the required members of an accepted event are, and its data. -/
structure Holding (obj : Members) (sheep : Sheep) : Prop where
  id : obj.lookup "id" = some (.string sheep.id)
  type : obj.lookup "type" = some (.string sheep.type)
  source : obj.lookup "source" = some (.string sheep.source)
  subject : obj.lookup "subject" = some (.string sheep.subject)
  specversion : obj.lookup "specversion" = some (.string sheep.specversion)
  data : sheep.data = (obj.lookup "data").filter fun v => !v.isNull
  untimed : sheep.time = none ↔ obj.lookup "time" = none ∨ obj.lookup "time" = some .null

/-- Of a member without defects, the time is missing only where the member is. -/
theorem time_eq_none_iff {member : Option Value} {time : Option OffsetDateTime}
    {message : String → String} (converted : timeOf crates member = .ok time)
    (clean : formatDefect (optionalDefect "time") (fun t => (crates.parseRfc3339 t).isSome) message
      member = none) : time = none ↔ member = none ∨ member = some .null := by
  unfold timeOf at converted
  unfold formatDefect at clean
  cases held : text member with
  | none =>
      simp only [held, Option.bind_none, Except.ok.injEq] at converted clean
      subst converted
      simpa only [true_iff] using (optionalDefect_of_no_text held).mp clean
  | some t =>
      obtain ⟨rfl, -⟩ := text_eq_some_iff.mp held
      rw [held, Option.bind_some] at converted
      cases parsed : crates.parseRfc3339 t with
      | none => simp [held, parsed] at clean
      | some dt =>
          rw [parsed] at converted
          cases kept : crates.toOffset dt with
          | error panic => simp [kept, Functor.map, Except.map] at converted
          | ok utc =>
              simp only [kept, Functor.map, Except.map, Except.ok.injEq] at converted
              simp [← converted]

theorem holding_of_accepts (accepted : Accepts crates (.object obj) sheep) : Holding obj sheep := by
  obtain ⟨time, converted, clean, rfl⟩ := (validate_object_accepts_iff crates).mp accepted
  have sound := (defects_eq_nil_iff crates).mp clean
  simp only [verdicts, List.mem_cons, List.not_mem_nil, or_false, forall_eq_or_imp, forall_eq,
    requiredDefect_eq_none_iff, formatDefect_required_eq_none_iff] at sound
  obtain ⟨⟨id, hasId⟩, ⟨source, hasSource⟩, ⟨kind, hasType⟩, ⟨sv, hasVersion, -⟩,
    ⟨subject, hasSubject⟩, -, -, timeSound⟩ := sound
  have held : ∀ {name s}, text (obj.lookup name) = some s →
      obj.lookup name = some (.string ((text (obj.lookup name)).getD "")) := by
    intro name s found
    rw [found]
    exact (text_eq_some_iff.mp found).1
  exact ⟨held hasId, held hasType, held hasSource, held hasSubject, held hasVersion, rfl,
    time_eq_none_iff converted timeSound⟩

theorem data_getD (holding : Holding obj sheep) : sheep.data.getD .null = eventData obj := by
  rw [holding.data, eventData]
  cases obj.lookup "data" with
  | none => rfl
  | some v => cases v <;> rfl

theorem payloadOf_eq (holding : Holding obj sheep) (time : Int) :
    payloadOf obj time = .object [
      ("data", eventData obj),
      ("id", .string sheep.id),
      ("source", .string sheep.source),
      ("subject", .string sheep.subject),
      ("time", .number (.int time)),
      ("type", .string sheep.type)] := by
  simp only [payloadOf, holding.id, holding.source, holding.subject, holding.type, Option.getD_some]

/-- **The payload of a message is the text of an object of its event.** -/
theorem payload_messageAt (holding : Holding obj sheep) (now : OffsetDateTime) :
    (messageAt crates now sheep).payload =
      crates.toVec (payloadOf obj (sheep.time.getD now).unixTimestamp) := by
  have idType : ¬ "type" < "id" := by decide
  have idSource : ¬ "source" < "id" := by decide
  have typeSource : "source" < "type" := by decide
  have idSubject : ¬ "subject" < "id" := by decide
  have sourceSubject : ¬ "subject" < "source" := by decide
  have typeSubject : "subject" < "type" := by decide
  have idTime : ¬ "time" < "id" := by decide
  have sourceTime : ¬ "time" < "source" := by decide
  have subjectTime : ¬ "time" < "subject" := by decide
  have typeTime : "time" < "type" := by decide
  have idData : "data" < "id" := by decide
  rw [payloadOf_eq holding]
  simp [serializeFlattened, stamp, flatten, Value.objectOf, Theory.Json.insert, data_getD holding,
    idType, idSource, typeSource, idSubject, sourceSubject, typeSubject, idTime, sourceTime, subjectTime,
    typeTime, idData]

/-- The message is a function of what the event holds. -/
theorem messageAt_of_holdsSame {now now' : OffsetDateTime} (holding : Holding obj sheep)
    (holding' : Holding obj' sheep') (same : HoldsSame obj sheep now obj' sheep' now') :
    messageAt crates now sheep = messageAt crates now' sheep' := by
  obtain ⟨id, type, source, subject, version, data, time, receivedAt⟩ := same
  have payload : payloadOf obj (sheep.time.getD now).unixTimestamp =
      payloadOf obj' (sheep'.time.getD now').unixTimestamp := by
    simp only [payloadOf, id, type, source, subject, data, time]
  rw [holding.subject, holding'.subject, Option.some.injEq, Value.string.injEq] at subject
  rw [holding.specversion, holding'.specversion, Option.some.injEq, Value.string.injEq] at version
  refine ProducedMessage.ext subject ?_ version receivedAt
  rw [payload_messageAt holding, payload_messageAt holding', payload]

/-- Of the published members, the `time` counts only for the second it falls in. -/
theorem messageAt_of_published (accepted : Accepts crates (.object obj) sheep)
    (accepted' : Accepts crates (.object obj') sheep')
    (same : ∀ name ∈ publishedMembers, name ≠ "time" → obj.lookup name = obj'.lookup name)
    {now : OffsetDateTime}
    (time : (sheep.time.getD now).unixTimestamp = (sheep'.time.getD now).unixTimestamp) :
    messageAt crates now sheep = messageAt crates now sheep' := by
  have data := same "data" (by decide) (by decide)
  exact messageAt_of_holdsSame (holding_of_accepts accepted) (holding_of_accepts accepted') {
    id := same "id" (by decide) (by decide)
    type := same "type" (by decide) (by decide)
    source := same "source" (by decide) (by decide)
    subject := same "subject" (by decide) (by decide)
    specversion := same "specversion" (by decide) (by decide)
    data := by rw [eventData, eventData, data]
    time := time
    receivedAt := rfl }

/-- Equal payloads are those of one id, source, subject, type, data and time. -/
theorem payloadOf_injective {time time' : Int} (holding : Holding obj sheep)
    (holding' : Holding obj' sheep') (same : payloadOf obj time = payloadOf obj' time') :
    sheep.id = sheep'.id ∧ sheep.source = sheep'.source ∧ sheep.subject = sheep'.subject ∧
      sheep.type = sheep'.type ∧ eventData obj = eventData obj' ∧ time = time' := by
  rw [payloadOf_eq holding, payloadOf_eq holding'] at same
  simp only [Value.object.injEq, List.cons.injEq, Prod.mk.injEq, Value.string.injEq,
    Value.number.injEq, Theory.Json.Number.int.injEq, true_and, and_true] at same
  obtain ⟨data, id, source, subject, time, type⟩ := same
  exact ⟨id, source, subject, type, data, time⟩

/-- **Two messages are equal exactly when their events held the same.** -/
theorem messageAt_eq_iff {limit : Nat} (writes : Writes crates limit) {now now' : OffsetDateTime}
    (canonical : Canonical (.object obj)) (within : depth (.object obj) ≤ limit)
    (canonical' : Canonical (.object obj')) (within' : depth (.object obj') ≤ limit)
    (holding : Holding obj sheep) (holding' : Holding obj' sheep') :
    messageAt crates now sheep = messageAt crates now' sheep' ↔
      HoldsSame obj sheep now obj' sheep' now' := by
  constructor
  · intro same
    obtain ⟨-, payload, version, receivedAt⟩ := ProducedMessage.ext_iff.mp same
    have version : sheep.specversion = sheep'.specversion := version
    obtain ⟨lower, upper⟩ := (sheep.time.getD now).unixTimestamp_bounds
    obtain ⟨lower', upper'⟩ := (sheep'.time.getD now').unixTimestamp_bounds
    rw [payload_messageAt holding, payload_messageAt holding'] at payload
    have equal := writes
      ⟨payloadOf_canonical canonical lower upper, (depth_payloadOf_le _ _).trans within⟩
      ⟨payloadOf_canonical canonical' lower' upper', (depth_payloadOf_le _ _).trans within'⟩ payload
    obtain ⟨id, source, subject, type, data, time⟩ := payloadOf_injective holding holding' equal
    exact {
      id := by rw [holding.id, holding'.id, id]
      type := by rw [holding.type, holding'.type, type]
      source := by rw [holding.source, holding'.source, source]
      subject := by rw [holding.subject, holding'.subject, subject]
      specversion := by rw [holding.specversion, holding'.specversion, version]
      data := data
      time := time
      receivedAt := receivedAt }
  · exact messageAt_of_holdsSame holding holding'

theorem sheep_of_published (accepted : Accepts crates (.object obj) sheep)
    (accepted' : Accepts crates (.object obj') sheep')
    (same : ∀ name ∈ publishedMembers, obj.lookup name = obj'.lookup name) (now : OffsetDateTime) :
    messageAt crates now sheep = messageAt crates now sheep' := by
  apply messageAt_of_published accepted accepted' fun name member _ => same name member
  obtain ⟨time, converted, -, rfl⟩ := (validate_object_accepts_iff crates).mp accepted
  obtain ⟨time', converted', -, rfl⟩ := (validate_object_accepts_iff crates).mp accepted'
  rw [same "time" (by decide), converted', Except.ok.injEq] at converted
  rw [sheepOf, sheepOf, converted]

end Accepted

/-! ## The round trip -/

section RoundTrip

variable {crates : Crates} {limit : Nat} {reread : BitVec 64 → Option (BitVec 64)}
  {read : Bytes → Option Value} {obj obj' : Members} {sheep sheep' : Sheep}

/-- What a sheep published at clock reading `now` decodes to, with this data. -/
def decodedAt (now : OffsetDateTime) (sheep : Sheep) (data : Value) : Decoded where
  key := sheep.subject
  id := sheep.id
  type := sheep.type
  source := sheep.source
  subject := sheep.subject
  specversion := sheep.specversion
  data := (some data).filter fun v => !v.isNull
  time := (sheep.time.getD now).unixTimestamp
  receivedAt := now.unixTimestamp

theorem read_messageAt (reads : Reads crates limit reread read) (canonical : Canonical (.object obj))
    (within : depth (.object obj) ≤ limit) (holding : Holding obj sheep) (now : OffsetDateTime) :
    read (messageAt crates now sheep).payload =
      mapFloats reread (payloadOf obj (sheep.time.getD now).unixTimestamp) := by
  obtain ⟨lower, upper⟩ := (sheep.time.getD now).unixTimestamp_bounds
  rw [payload_messageAt holding]
  exact reads _ (payloadOf_canonical canonical lower upper) ((depth_payloadOf_le _ _).trans within)

theorem mapFloats_payloadOf (holding : Holding obj sheep) (time : Int) :
    mapFloats reread (payloadOf obj time) = (mapFloats reread (eventData obj)).map fun data =>
      .object [
        ("data", data),
        ("id", .string sheep.id),
        ("source", .string sheep.source),
        ("subject", .string sheep.subject),
        ("time", .number (.int time)),
        ("type", .string sheep.type)] := by
  rw [payloadOf_eq holding]
  cases mapped : mapFloats reread (eventData obj) <;> simp [mapFloats, mapFloatsMembers, mapped]

theorem decode_messageAt (reads : Reads crates limit reread read) (canonical : Canonical (.object obj))
    (within : depth (.object obj) ≤ limit) (holding : Holding obj sheep) (now : OffsetDateTime) :
    decode read (messageAt crates now sheep) =
      (mapFloats reread (eventData obj)).map (decodedAt now sheep) := by
  unfold decode
  rw [read_messageAt reads canonical within holding, mapFloats_payloadOf holding]
  cases mapFloats reread (eventData obj) with
  | none => rfl
  | some data =>
      simp [Value.asObject, stringMember, integerMember, List.lookup, stamp, serializeFlattened, decodedAt]

theorem restores_decodedAt (holding : Holding obj sheep) (now : OffsetDateTime) {data : Value}
    (reads : mapFloats reread (eventData obj) = some data) :
    Restores reread obj sheep now (decodedAt now sheep data) := by
  refine ⟨holding.subject, holding.id, holding.type, holding.source, holding.subject,
    holding.specversion, fun v => ?_, rfl, holding.untimed, rfl⟩
  have kept : (decodedAt now sheep data).data = some v ↔ data = v ∧ v.isNull = false := by
    simp only [decodedAt, Option.filter_eq_some_iff, Option.some.injEq, Bool.not_eq_true']
  have null : (eventData obj).isNull = data.isNull := (isNull_mapFloats reads).symm
  rw [kept]
  unfold eventData at reads null
  cases found : obj.lookup "data" with
  | none =>
      rw [found] at reads null
      simp only [reduceCtorEq, false_and, exists_false, iff_false, not_and]
      rintro rfl
      simpa [Value.isNull] using null
  | some d =>
      rw [found, Option.getD_some] at reads null
      simp only [Option.some.injEq, exists_eq_left', reads]
      constructor
      · rintro ⟨rfl, present⟩
        refine ⟨?_, rfl⟩
        rintro rfl
        rw [← null] at present
        cases present
      · rintro ⟨present, rfl⟩
        refine ⟨rfl, null.symm.trans ?_⟩
        cases d <;> first | rfl | exact absurd rfl present

/-- Where the floats are given back, so is the data. -/
theorem Restores.exact {now : OffsetDateTime} {decoded : Decoded}
    (restores : Restores reread obj sheep now decoded) (restored : Restored reread obj) (v : Value) :
    decoded.data = some v ↔ obj.lookup "data" = some v ∧ v ≠ .null := by
  rw [restores.data]
  constructor
  · rintro ⟨data, found, present, read_as⟩
    have same : eventData obj = data := by rw [eventData, found, Option.getD_some]
    rw [Restored, same, read_as, Option.some.injEq] at restored
    exact restored ▸ ⟨found, present⟩
  · rintro ⟨found, present⟩
    have same : eventData obj = v := by rw [eventData, found, Option.getD_some]
    rw [Restored, same] at restored
    exact ⟨v, found, present, restored⟩

/-- A payload that parses is an object of the six members, nested no deeper than the event. -/
theorem payload_parses (reads : Reads crates limit reread read) (canonical : Canonical (.object obj))
    (within : depth (.object obj) ≤ limit) (holding : Holding obj sheep) (now : OffsetDateTime)
    {data : Value} (mapped : mapFloats reread (eventData obj) = some data) :
    ∃ members, read (messageAt crates now sheep).payload = some (.object members) ∧
      depth (.object members) ≤ limit ∧
      members.map Prod.fst = ["data", "id", "source", "subject", "time", "type"] := by
  have shallow := (depth_payloadOf_le obj (sheep.time.getD now).unixTimestamp).trans within
  have parsed := @mapFloats_payloadOf reread obj sheep holding (sheep.time.getD now).unixTimestamp
  rw [mapped, Option.map_some] at parsed
  refine ⟨_, (read_messageAt reads canonical within holding now).trans parsed, ?_, rfl⟩
  rwa [depth_mapFloats parsed]

/-- Two messages whose data was given back, and that decode alike, are one message. -/
theorem messageAt_eq_of_decodedAt_eq {now now' : OffsetDateTime} (holding : Holding obj sheep)
    (holding' : Holding obj' sheep')
    (same : decodedAt now sheep (eventData obj) = decodedAt now' sheep' (eventData obj')) :
    messageAt crates now sheep = messageAt crates now' sheep' := by
  obtain ⟨key, id, type, source, subject, specversion, data, time, receivedAt⟩ :=
    Decoded.ext_iff.mp same
  simp only [decodedAt] at key id type source subject specversion data time receivedAt
  have data : eventData obj = eventData obj' := by
    generalize eventData obj = d at data
    generalize eventData obj' = d' at data
    cases d <;> cases d' <;> simp_all [Value.isNull, Option.filter]
  apply ProducedMessage.ext subject ?_ specversion receivedAt
  rw [payload_messageAt holding, payload_messageAt holding', payloadOf_eq holding, payloadOf_eq holding',
    id, type, source, subject, data, time]

/-- **A published message decodes back to the accepted event, and only to it**, the floats
of its data as the reader gives them back. -/
theorem published_decodes (crates : Crates) (limit : Nat) (writes : Writes crates limit)
    (reread : BitVec 64 → Option (BitVec 64)) (read : Bytes → Option Value)
    (reads : Reads crates limit reread read) {obj : Members} {sheep : Sheep}
    (canonical : Canonical (.object obj)) (within : depth (.object obj) ≤ limit)
    (accepted : Accepts crates (.object obj) sheep) (now : OffsetDateTime) :
    (read (messageAt crates now sheep).payload = none ↔ mapFloats reread (eventData obj) = none) ∧
    (mapFloats reread (eventData obj) ≠ none →
      (∃ members, read (messageAt crates now sheep).payload = some (.object members) ∧
        depth (.object members) ≤ limit ∧
        members.map Prod.fst = ["data", "id", "source", "subject", "time", "type"]) ∧
      ∃ decoded, decode read (messageAt crates now sheep) = some decoded ∧
        Restores reread obj sheep now decoded ∧
        (Restored reread obj → ∀ v, decoded.data = some v ↔ obj.lookup "data" = some v ∧ v ≠ .null)) ∧
    ∀ (obj' : Members) (sheep' : Sheep) (now' : OffsetDateTime), Canonical (.object obj') →
      depth (.object obj') ≤ limit → Accepts crates (.object obj') sheep' →
        (messageAt crates now sheep = messageAt crates now' sheep' ↔
          HoldsSame obj sheep now obj' sheep' now') ∧
        (Restored reread obj → Restored reread obj' →
          (messageAt crates now sheep = messageAt crates now' sheep' ↔
            decode read (messageAt crates now sheep) = decode read (messageAt crates now' sheep'))) ∧
        ((∀ name ∈ publishedMembers, obj.lookup name = obj'.lookup name) → now = now' →
          messageAt crates now sheep = messageAt crates now' sheep') := by
  have holding := holding_of_accepts accepted
  refine ⟨?_, ?_, ?_⟩
  · rw [read_messageAt reads canonical within holding, mapFloats_payloadOf holding,
      Option.map_eq_none_iff]
  · intro accepts
    obtain ⟨data, mapped⟩ := Option.ne_none_iff_exists'.mp accepts
    have restores := restores_decodedAt holding now mapped
    refine ⟨payload_parses reads canonical within holding now mapped, decodedAt now sheep data, ?_,
      restores, restores.exact⟩
    rw [decode_messageAt reads canonical within holding, mapped, Option.map_some]
  · intro obj' sheep' now' canonical' within' accepted'
    have holding' := holding_of_accepts accepted'
    refine ⟨messageAt_eq_iff writes canonical within canonical' within' holding holding', ?_, ?_⟩
    · intro restored restored'
      constructor
      · intro same
        rw [same]
      · intro same
        rw [decode_messageAt reads canonical within holding, restored,
          decode_messageAt reads canonical' within' holding', restored', Option.map_some, Option.map_some,
          Option.some.injEq] at same
        exact messageAt_eq_of_decodedAt_eq holding holding' same
    · rintro same rfl
      exact sheep_of_published accepted accepted' same now

end RoundTrip

/-! ## With the crate as the service builds it -/

/-- An event with every attribute the message carries, and an extension. -/
def fullEvent (data : Value) (time : String) : Members :=
  [("data", data), ("id", .string "1"), ("paddock", .string "north"), ("source", .string "/meadow"),
    ("specversion", .string "1.0"), ("subject", .string "flock-7"), ("time", .string time),
    ("type", .string "sheep.counted")]

def fullSheep (data : Value) (utc : OffsetDateTime) : Sheep :=
  { leastSheep "1" "/meadow" "sheep.counted" "flock-7" with time := some utc, data := some data }

theorem fullEvent_canonical {data : Value} (canonical : Canonical data) (time : String) :
    Canonical (.object (fullEvent data time)) := by
  refine ⟨?_, canonical, trivial, trivial, trivial, trivial, trivial, trivial, trivial, trivial⟩
  simp only [Ascending, fullEvent, List.pairwise_cons, List.mem_cons, List.not_mem_nil, or_false,
    forall_eq_or_imp, forall_eq, IsEmpty.forall_iff, implies_true, List.Pairwise.nil, and_true]
  decide

theorem fullEvent_accepted {crates : Crates} {data : Value} {time : String} {dt utc : OffsetDateTime}
    (present : data.isNull = false) (nonempty : time ≠ "") (parsed : crates.parseRfc3339 time = some dt)
    (kept : dt.toOffsetUtc = some utc) :
    Accepts crates (.object (fullEvent data time)) (fullSheep data utc) := by
  have held : text (some (.string time)) = some time := text_eq_some_iff.mpr ⟨rfl, nonempty⟩
  have found : (fullEvent data time).lookup "time" = some (.string time) := by
    simp [fullEvent, List.lookup]
  have converted : timeOf crates (some (.string time)) = .ok (some utc) := by
    unfold timeOf
    rw [held, Option.bind_some, parsed]
    exact congrArg (some <$> ·) (Crates.toOffset_eq_ok_iff.mpr kept)
  refine (validate_object_accepts_iff crates).mpr ⟨some utc, ?_, ?_, ?_⟩
  · rw [found, converted]
  · simp [defects, verdicts, requiredDefect, optionalDefect, formatDefect, text, List.lookup, fullEvent,
      nonempty, parsed]
  · simp [sheepOf, fullSheep, leastSheep, fullEvent, text, List.lookup, Option.filter, present]

/-- An hour east of UTC, half an hour into the year. -/
def newYear : String := "2026-01-01T00:30:00+01:00"

theorem newYear_parsed : ∃ dt utc, serdeJson.parseRfc3339 newYear = some dt ∧
    dt.toOffsetUtc = some utc ∧ utc.unixTimestamp = 1767223800 := by
  have read : ((Rfc3339.parse newYear.toList).bind OffsetDateTime.toOffsetUtc).map
      OffsetDateTime.unixTimestamp = some 1767223800 := by decide +kernel
  obtain ⟨utc, converted, same⟩ := Option.map_eq_some_iff.mp read
  obtain ⟨dt, parsed, kept⟩ := Option.bind_eq_some_iff.mp converted
  exact ⟨dt, utc, parsed, kept, same⟩

theorem serdeJson_reads : Reads serdeJson nestingLimit (reread bestEffort) serdeJson.fromSlice :=
  fun _ => withDecimals_reads bestEffort

/-- A reader that rounds correctly tells the texts of any two values apart. -/
theorem serdeJson_writes : Writes serdeJson nestingLimit := by
  rintro v ⟨canonical, within⟩ v' ⟨canonical', within'⟩ same
  have read := reference_reads canonical within
  have read' := reference_reads canonical' within'
  have text : reference.toVec v = reference.toVec v' := same
  rw [text, read', Option.some.injEq] at read
  exact read.symm

/-- **`serde_json` moves some floats to a neighbour each time it reads them.** The event is
posted with one, is accepted with the next, and is read back with the one after. -/
theorem published_float_moves :
    serdeJson.fromSlice (serdeJson.toVec (.object (fullEvent (.number (.float driftingFloat)) newYear))) =
      some (.object (fullEvent (.number (.float (driftingFloat + 1))) newYear)) ∧
    ∃ utc decoded, Accepts serdeJson (.object (fullEvent (.number (.float (driftingFloat + 1))) newYear))
        (fullSheep (.number (.float (driftingFloat + 1))) utc) ∧
      decode serdeJson.fromSlice
          (messageAt serdeJson .epoch (fullSheep (.number (.float (driftingFloat + 1))) utc)) = some decoded ∧
      decoded.data = some (.number (.float (driftingFloat + 2))) ∧
      decoded.data ≠
        (fullEvent (.number (.float (driftingFloat + 1))) newYear).lookup "data" := by
  obtain ⟨first, second⟩ := float_moves
  have canonical : ∀ bits : BitVec 64, Theory.Json.Number.Finite bits →
      Canonical (.object (fullEvent (.number (.float bits)) newYear)) :=
    fun bits finite => @fullEvent_canonical (.number (.float bits)) finite newYear
  obtain ⟨dt, utc, parsed, kept, -⟩ := newYear_parsed
  have accepted := @fullEvent_accepted serdeJson (.number (.float (driftingFloat + 1))) newYear dt utc rfl
    (by decide) parsed kept
  constructor
  · refine (withDecimals_reads bestEffort (canonical driftingFloat (by decide)) (by decide)).trans ?_
    simp only [fullEvent, mapFloats, mapFloatsMembers, first, Option.map_some, Option.bind_some]
  · have data : eventData (fullEvent (.number (.float (driftingFloat + 1))) newYear) =
        .number (.float (driftingFloat + 1)) := by simp only [eventData, fullEvent, List.lookup]; rfl
    have read := decode_messageAt serdeJson_reads (canonical (driftingFloat + 1) (by decide)) (by decide)
      (holding_of_accepts accepted) .epoch
    rw [data, mapFloats, second] at read
    refine ⟨utc, _, accepted, read, rfl, ?_⟩
    simp [decodedAt, Option.filter, Value.isNull, fullEvent]

/-- A data whose float is given back. -/
def steadyData : Value := .object [("mean", .number (.float steadyFloat)), ("unit", .string "sheep")]

/-- Data, time and an extension, read back. -/
theorem published_decodes_full : ∃ utc decoded, utc.unixTimestamp = 1767223800 ∧
    decode serdeJson.fromSlice (messageAt serdeJson .epoch (fullSheep steadyData utc)) = some decoded ∧
    Restores (reread bestEffort) (fullEvent steadyData newYear) (fullSheep steadyData utc) .epoch decoded ∧
    decoded.data = some steadyData := by
  have found : (fullEvent steadyData newYear).lookup "data" = some steadyData := by
    simp only [fullEvent, List.lookup]
    rfl
  have same : Restored (reread bestEffort) (fullEvent steadyData newYear) := by
    rw [Restored, eventData, found]
    simp only [steadyData, Option.getD_some, mapFloats, mapFloatsMembers, float_stays, Option.map_some,
      Option.bind_some]
  have canonical : Canonical steadyData := by
    refine ⟨?_, show Theory.Json.Number.Finite steadyFloat by decide, trivial, trivial⟩
    simp only [Ascending, List.pairwise_cons, List.mem_cons, List.not_mem_nil, or_false, forall_eq,
      IsEmpty.forall_iff, implies_true, List.Pairwise.nil, and_true]
    decide
  obtain ⟨dt, utc, parsed, kept, seconds⟩ := newYear_parsed
  obtain ⟨-, reads, -⟩ := published_decodes serdeJson nestingLimit serdeJson_writes (reread bestEffort)
    serdeJson.fromSlice serdeJson_reads (fullEvent_canonical canonical newYear) (by decide)
    (fullEvent_accepted rfl (by decide) parsed kept) .epoch
  obtain ⟨-, decoded, read, restores, exactly⟩ := reads (by rw [same]; exact Option.some_ne_none _)
  have present : steadyData ≠ .null := by
    intro null
    cases null
  exact ⟨utc, decoded, seconds, read, restores, (exactly same _).mpr ⟨found, present⟩⟩

end CountingSheep.Ingest
