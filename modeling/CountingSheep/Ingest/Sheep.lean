/-
# CountingSheep.Ingest.Sheep — the validated event and its validator

`validate` reads nine members of a JSON object, pushing a message for each that
is missing or malformed, and builds a `Sheep` when there were none. The error
list is threaded through the checks as the source threads its `&mut Vec`.

Each check is characterised by what it returns and what it pushes, both functions
of the one member it reads (`requiredString_eq`, `optionalString_eq`,
`optionalUri_eq`, `optionalMediaType_eq`). `validate_object` puts them together:
the value of `validate` on an object is its `time` conversion, which may panic,
and then `defects` or the `Sheep` of its members. The layers above use these and
never unfold `validate`.
-/
import CountingSheep.Rust.Crates

namespace CountingSheep.Ingest

open Rust
open Theory.Json (Value)

set_option autoImplicit false

/-- A usage event that has passed validation. -/
structure Sheep where
  id : String
  source : String
  type : String
  specversion : String
  subject : String
  time : Option OffsetDateTime
  data : Option Value
  datacontenttype : Option String
  dataschema : Option String

/-- The members of a JSON object. -/
abbrev Members := List (String × Value)

/-! ## The checks -/

/-- A present, non-empty string is required. -/
def requiredString (obj : Members) (key : String) (errors : List String) :
    Option String × List String :=
  match obj.lookup key with
  | none | some .null => (none, errors ++ [key ++ " is required"])
  | some (.string s) =>
      if s ≠ "" then (some s, errors) else (none, errors ++ [key ++ " must not be empty"])
  | some _ => (none, errors ++ [key ++ " must be a string"])

/-- If present and non-null, must be a non-empty string. -/
def optionalString (obj : Members) (key : String) (errors : List String) :
    Option String × List String :=
  match obj.lookup key with
  | none | some .null => (none, errors)
  | some (.string s) =>
      if s ≠ "" then (some s, errors) else (none, errors ++ [key ++ " must not be empty"])
  | some _ => (none, errors ++ [key ++ " must be a string"])

/-- A scheme, a colon, and neither fragment, whitespace nor control characters. -/
def isAbsoluteUri (s : String) : Bool :=
  match splitOnce ':' s.toList with
  | none => false
  | some (scheme, _) =>
      let validScheme := match scheme with
        | [] => false
        | c :: rest => c.isAlpha && rest.all fun c => c.isAlphanum || c = '+' || c = '-' || c = '.'
      validScheme && !s.toList.contains '#' &&
        !s.toList.any fun c => isWhitespace c || isControl c

/-- If present and non-null, must be a non-empty absolute URI. -/
def optionalUri (obj : Members) (key : String) (errors : List String) :
    Option String × List String :=
  match optionalString obj key errors with
  | (none, errors) => (none, errors)
  | (some value, errors) =>
      if isAbsoluteUri value then (some value, errors)
      else (none, errors ++ [key ++ " must be an absolute URI"])

/-- The RFC 2045 characters that end a token. -/
def tspecials : List Char :=
  ['(', ')', '<', '>', '@', ',', ';', ':', '\\', '"', '/', '[', ']', '?', '=']

def isToken (part : List Char) : Bool :=
  !part.isEmpty && part.all fun c => isAsciiGraphic c && !tspecials.contains c

/-- `type "/" subtype`, with parameters after a `;` not inspected. -/
def isMediaType (s : String) : Bool :=
  let essence := trim (beforeFirst ';' s.toList)
  match splitOnce '/' essence with
  | none => false
  | some (kind, subtype) => isToken kind && isToken subtype

/-- If present and non-null, must be a non-empty RFC 2046 media type. -/
def optionalMediaType (obj : Members) (key : String) (errors : List String) :
    Option String × List String :=
  match optionalString obj key errors with
  | (none, errors) => (none, errors)
  | (some value, errors) =>
      if isMediaType value then (some value, errors)
      else (none, errors ++ [key ++ " must be a media type"])

/-! ## The validator -/

section Validate

variable (crates : Crates)

/-- The second look at `specversion`, once it is known to be a string. -/
def checkSpecversion (specversion : Option String) (errors : List String) : List String :=
  match specversion with
  | some sv =>
      if sv ≠ "1.0" then errors ++ ["specversion must be \"1.0\", got \"" ++ sv ++ "\""]
      else errors
  | none => errors

/-- Parse the `time` text and keep it in UTC. -/
def parseTime (text : Option String) (errors : List String) :
    Exec (Option OffsetDateTime × List String) :=
  match text with
  | none => .ok (none, errors)
  | some t =>
      match crates.parseRfc3339 t with
      | some dt => (crates.toOffset dt).map fun utc => (some utc, errors)
      | none => .ok (none, errors ++ ["time must be RFC 3339, got \"" ++ t ++ "\""])

/-- Validate a raw JSON value. Collects all failures rather than stopping at the
first; `to_offset` and the five `unwrap`s are where it could panic. -/
def validate (value : Value) : Exec (Except (List String) Sheep) := do
  let some obj := value.asObject | return .error ["body must be a JSON object"]
  let errors : List String := []
  let (id, errors) := requiredString obj "id" errors
  let (source, errors) := requiredString obj "source" errors
  let (kind, errors) := requiredString obj "type" errors
  let (specversion, errors) := requiredString obj "specversion" errors
  let errors := checkSpecversion specversion errors
  let (subject, errors) := requiredString obj "subject" errors
  let (datacontenttype, errors) := optionalMediaType obj "datacontenttype" errors
  let (dataschema, errors) := optionalUri obj "dataschema" errors
  let (text, errors) := optionalString obj "time" errors
  let (time, errors) ← parseTime crates text errors
  let data := (obj.lookup "data").filter fun v => !v.isNull
  if !errors.isEmpty then return .error errors
  return .ok {
    id := ← unwrap id
    source := ← unwrap source
    type := ← unwrap kind
    specversion := ← unwrap specversion
    subject := ← unwrap subject
    time, data, datacontenttype, dataschema }

end Validate

/-! ## What each check returns and pushes -/

/-- The non-empty string a member holds, if it holds one. -/
def text : Option Value → Option String
  | some (.string s) => if s ≠ "" then some s else none
  | _ => none

/-- What is wrong with a member that must be a non-empty string. -/
def requiredDefect (key : String) : Option Value → Option String
  | none | some .null => some (key ++ " is required")
  | some (.string s) => if s ≠ "" then none else some (key ++ " must not be empty")
  | some _ => some (key ++ " must be a string")

/-- What is wrong with a member that must be a non-empty string or missing. -/
def optionalDefect (key : String) : Option Value → Option String
  | none | some .null => none
  | some (.string s) => if s ≠ "" then none else some (key ++ " must not be empty")
  | some _ => some (key ++ " must be a string")

/-- What is wrong with a member whose string, if it has one, must be recognised. -/
def formatDefect (defect : Option Value → Option String) (recognised : String → Bool)
    (message : String → String) (member : Option Value) : Option String :=
  match text member with
  | some s => if recognised s then none else some (message s)
  | none => defect member

theorem requiredString_eq (obj : Members) (key : String) (errors : List String) :
    requiredString obj key errors =
      (text (obj.lookup key), errors ++ (requiredDefect key (obj.lookup key)).toList) := by
  unfold requiredString
  generalize obj.lookup key = member
  rcases member with _ | _ | _ | _ | s | _ | _ <;> simp only [text, requiredDefect] <;>
    (try split) <;> simp

theorem optionalString_eq (obj : Members) (key : String) (errors : List String) :
    optionalString obj key errors =
      (text (obj.lookup key), errors ++ (optionalDefect key (obj.lookup key)).toList) := by
  unfold optionalString
  generalize obj.lookup key = member
  rcases member with _ | _ | _ | _ | s | _ | _ <;> simp only [text, optionalDefect] <;>
    (try split) <;> simp

theorem text_eq_some_iff {member : Option Value} {s : String} :
    text member = some s ↔ member = some (.string s) ∧ s ≠ "" := by
  rcases member with _ | _ | _ | _ | t | _ | _ <;> simp only [text, reduceCtorEq, false_and,
    Option.some.injEq, Value.string.injEq]
  split
  · rename_i nonempty
    constructor
    · rintro ⟨⟩
      exact ⟨rfl, nonempty⟩
    · rintro ⟨rfl, -⟩
      rfl
  · rename_i empty
    simp only [reduceCtorEq, false_iff, not_and]
    rintro rfl
    exact empty

theorem requiredDefect_eq_none_iff {key : String} {member : Option Value} :
    requiredDefect key member = none ↔ ∃ s, text member = some s := by
  rcases member with _ | _ | _ | _ | s | _ | _ <;> simp only [text, requiredDefect, reduceCtorEq,
    exists_false]
  split <;> simp

theorem optionalDefect_of_text {key s : String} {member : Option Value}
    (held : text member = some s) : optionalDefect key member = none := by
  obtain ⟨rfl, nonempty⟩ := text_eq_some_iff.mp held
  simp [optionalDefect, nonempty]

theorem optionalDefect_of_no_text {key : String} {member : Option Value}
    (blank : text member = none) :
    optionalDefect key member = none ↔ member = none ∨ member = some .null := by
  rcases member with _ | _ | _ | _ | s | _ | _ <;> simp only [optionalDefect, reduceCtorEq,
    Option.some.injEq, or_false, or_true]
  by_cases nonempty : s ≠ ""
  · simp [text, nonempty] at blank
  · simp [nonempty]

theorem formatDefect_required_eq_none_iff {key : String} {recognised : String → Bool}
    {message : String → String} {member : Option Value} :
    formatDefect (requiredDefect key) recognised message member = none ↔
      ∃ s, text member = some s ∧ recognised s = true := by
  cases held : text member with
  | none =>
      have missing : requiredDefect key member ≠ none := fun sound => by
        simpa [held] using requiredDefect_eq_none_iff.mp sound
      simpa [formatDefect, held] using missing
  | some s => simp [formatDefect, held]

theorem optionalUri_eq (obj : Members) (key : String) (errors : List String) :
    optionalUri obj key errors =
      ((text (obj.lookup key)).filter isAbsoluteUri,
        errors ++ (formatDefect (optionalDefect key) isAbsoluteUri
          (fun _ => key ++ " must be an absolute URI") (obj.lookup key)).toList) := by
  rw [optionalUri, optionalString_eq]
  cases held : text (obj.lookup key) with
  | none => simp [formatDefect, held]
  | some value =>
      by_cases recognised : isAbsoluteUri value = true <;>
        simp [formatDefect, held, recognised, optionalDefect_of_text held, Option.filter]

theorem optionalMediaType_eq (obj : Members) (key : String) (errors : List String) :
    optionalMediaType obj key errors =
      ((text (obj.lookup key)).filter isMediaType,
        errors ++ (formatDefect (optionalDefect key) isMediaType
          (fun _ => key ++ " must be a media type") (obj.lookup key)).toList) := by
  rw [optionalMediaType, optionalString_eq]
  cases held : text (obj.lookup key) with
  | none => simp [formatDefect, held]
  | some value =>
      by_cases recognised : isMediaType value = true <;>
        simp [formatDefect, held, recognised, optionalDefect_of_text held, Option.filter]

/-! ## The validator, check by check -/

section Spec

variable (crates : Crates)

/-- The `time` member converted to UTC. -/
def timeOf (member : Option Value) : Exec (Option OffsetDateTime) :=
  match (text member).bind crates.parseRfc3339 with
  | some dt => some <$> crates.toOffset dt
  | none => .ok none

/-- What is wrong with each of an object's eight checked members, in the order of
the checks. -/
def verdicts (obj : Members) : List (Option String) :=
  [requiredDefect "id" (obj.lookup "id"),
    requiredDefect "source" (obj.lookup "source"),
    requiredDefect "type" (obj.lookup "type"),
    formatDefect (requiredDefect "specversion") (· = "1.0")
      (fun sv => "specversion must be \"1.0\", got \"" ++ sv ++ "\"") (obj.lookup "specversion"),
    requiredDefect "subject" (obj.lookup "subject"),
    formatDefect (optionalDefect "datacontenttype") isMediaType
      (fun _ => "datacontenttype" ++ " must be a media type") (obj.lookup "datacontenttype"),
    formatDefect (optionalDefect "dataschema") isAbsoluteUri
      (fun _ => "dataschema" ++ " must be an absolute URI") (obj.lookup "dataschema"),
    formatDefect (optionalDefect "time") (fun t => (crates.parseRfc3339 t).isSome)
      (fun t => "time must be RFC 3339, got \"" ++ t ++ "\"") (obj.lookup "time")]

/-- The messages, pushed one check after another. -/
def defects (obj : Members) : List String :=
  (verdicts crates obj).foldl (fun errors defect => errors ++ defect.toList) []

/-- The `Sheep` an object without defects describes. -/
def sheepOf (obj : Members) (time : Option OffsetDateTime) : Sheep where
  id := (text (obj.lookup "id")).getD ""
  source := (text (obj.lookup "source")).getD ""
  type := (text (obj.lookup "type")).getD ""
  specversion := (text (obj.lookup "specversion")).getD ""
  subject := (text (obj.lookup "subject")).getD ""
  time := time
  data := (obj.lookup "data").filter fun v => !v.isNull
  datacontenttype := (text (obj.lookup "datacontenttype")).filter isMediaType
  dataschema := (text (obj.lookup "dataschema")).filter isAbsoluteUri

theorem checkSpecversion_eq (member : Option Value) (errors : List String) :
    checkSpecversion (text member) (errors ++ (requiredDefect "specversion" member).toList) =
      errors ++ (formatDefect (requiredDefect "specversion") (· = "1.0")
        (fun sv => "specversion must be \"1.0\", got \"" ++ sv ++ "\"") member).toList := by
  cases held : text member with
  | none => simp [checkSpecversion, formatDefect, held]
  | some sv =>
      have sound : requiredDefect "specversion" member = none :=
        requiredDefect_eq_none_iff.mpr ⟨sv, held⟩
      by_cases supported : sv = "1.0" <;>
        simp [checkSpecversion, formatDefect, held, sound, supported]

theorem parseTime_eq (member : Option Value) (errors : List String) :
    parseTime crates (text member) (errors ++ (optionalDefect "time" member).toList) =
      (timeOf crates member).map fun time => (time, errors ++
        (formatDefect (optionalDefect "time") (fun t => (crates.parseRfc3339 t).isSome)
          (fun t => "time must be RFC 3339, got \"" ++ t ++ "\"") member).toList) := by
  cases held : text member with
  | none => simp [parseTime, timeOf, formatDefect, held, Except.map]
  | some t =>
      cases parsed : crates.parseRfc3339 t with
      | none =>
          simp [parseTime, timeOf, formatDefect, held, parsed, optionalDefect_of_text held,
            Except.map]
      | some dt =>
          cases converted : crates.toOffset dt <;>
            simp [parseTime, timeOf, formatDefect, held, parsed, optionalDefect_of_text held,
              converted, Except.map]

theorem unwrap_text_of_sound {member : Option Value} (held : ∃ s, text member = some s) :
    unwrap (text member) = .ok ((text member).getD "") := by
  obtain ⟨s, held⟩ := held
  rw [held]
  rfl

theorem defects_eq_flatMap (obj : Members) :
    defects crates obj = (verdicts crates obj).flatMap Option.toList :=
  List.flatMap_eq_foldl.symm

theorem defects_eq_nil_iff {obj : Members} :
    defects crates obj = [] ↔ ∀ defect ∈ verdicts crates obj, defect = none := by
  simp [defects_eq_flatMap]

/-- **The validator on an object.** Its `time` conversion runs first and may
panic; the rest is `defects` or the `Sheep`, and no `unwrap` fails. -/
theorem validate_object (obj : Members) :
    validate crates (.object obj) = (timeOf crates (obj.lookup "time")).map fun time =>
      if defects crates obj = [] then .ok (sheepOf obj time) else .error (defects crates obj) := by
  simp only [validate, Value.asObject, requiredString_eq, optionalString_eq, optionalUri_eq,
    optionalMediaType_eq, checkSpecversion_eq, parseTime_eq]
  change (do
    let checked ← (timeOf crates (obj.lookup "time")).map fun time => (time, defects crates obj)
    _) = _
  cases timeOf crates (obj.lookup "time") with
  | error panic => rfl
  | ok time =>
      by_cases clean : defects crates obj = []
      · have sound := (defects_eq_nil_iff crates).mp clean
        simp only [verdicts, List.mem_cons, List.not_mem_nil, or_false, forall_eq_or_imp,
          forall_eq, requiredDefect_eq_none_iff, formatDefect_required_eq_none_iff] at sound
        obtain ⟨id, source, kind, ⟨sv, held, -⟩, subject, -⟩ := sound
        have specversion := unwrap_text_of_sound ⟨sv, held⟩
        simp only [unwrap_text_of_sound id, unwrap_text_of_sound source, unwrap_text_of_sound kind,
          specversion, unwrap_text_of_sound subject, Except.map, clean]
        rfl
      · simp [Except.map, clean, bind, Except.bind, pure, Except.pure]

theorem validate_of_not_object {v : Value} (other : v.asObject = none) :
    validate crates v = .ok (.error ["body must be a JSON object"]) := by
  cases v with
  | object obj => simp [Value.asObject] at other
  | _ => rfl

theorem timeOf_eq_error_iff {member : Option Value} {panic : Panic} :
    timeOf crates member = .error panic ↔
      ∃ dt, (text member).bind crates.parseRfc3339 = some dt ∧ ¬ dt.InRange ∧
        panic = ⟨crates.toOffsetPanic⟩ := by
  simp only [timeOf]
  cases (text member).bind crates.parseRfc3339 with
  | none => simp only [reduceCtorEq, false_and, exists_false]
  | some dt =>
      simp only [Option.some.injEq, exists_eq_left', ← Crates.toOffset_eq_error_iff]
      cases crates.toOffset dt <;> simp [Functor.map, Except.map]

theorem validate_object_accepts_iff {obj : Members} {s : Sheep} :
    validate crates (.object obj) = .ok (.ok s) ↔
      ∃ time, timeOf crates (obj.lookup "time") = .ok time ∧ defects crates obj = [] ∧
        s = sheepOf obj time := by
  rw [validate_object]
  generalize timeOf crates (obj.lookup "time") = outcome
  cases outcome with
  | error panic => simp only [Except.map, reduceCtorEq, false_and, exists_false]
  | ok time =>
      by_cases clean : defects crates obj = [] <;>
        simp only [Except.map, clean, if_true, if_false, Except.ok.injEq, reduceCtorEq, true_and,
          false_and, exists_eq_left', exists_const, and_false, eq_comm]

theorem validate_object_rejects_iff {obj : Members} {errors : List String} :
    validate crates (.object obj) = .ok (.error errors) ↔
      ∃ time, timeOf crates (obj.lookup "time") = .ok time ∧ defects crates obj = errors ∧
        errors ≠ [] := by
  rw [validate_object]
  generalize timeOf crates (obj.lookup "time") = outcome
  cases outcome with
  | error panic => simp only [Except.map, reduceCtorEq, false_and, exists_false]
  | ok time =>
      by_cases clean : defects crates obj = []
      · simp only [Except.map, clean, if_true, Except.ok.injEq, reduceCtorEq, exists_eq_left',
          false_iff, not_and, not_not]
        exact Eq.symm
      · simp only [Except.map, clean, if_false, Except.ok.injEq, Except.error.injEq,
          exists_eq_left']
        exact ⟨fun same => ⟨same, same ▸ clean⟩, And.left⟩

theorem validate_accepts_iff {v : Value} {s : Sheep} :
    validate crates v = .ok (.ok s) ↔
      ∃ obj time, v = .object obj ∧ timeOf crates (obj.lookup "time") = .ok time ∧
        defects crates obj = [] ∧ s = sheepOf obj time := by
  rcases v.object_or_not with other | ⟨obj, rfl⟩
  · rw [validate_of_not_object crates other]
    constructor
    · rintro ⟨⟩
    · rintro ⟨_, _, rfl, -⟩
      cases other
  · rw [validate_object_accepts_iff]
    constructor
    · rintro ⟨time, accepted⟩
      exact ⟨obj, time, rfl, accepted⟩
    · rintro ⟨_, time, ⟨⟩, accepted⟩
      exact ⟨time, accepted⟩

/-- A rejection names at least one defect. -/
theorem validate_rejects_nonempty {v : Value} {errors : List String}
    (rejected : validate crates v = .ok (.error errors)) : errors ≠ [] := by
  rcases v.object_or_not with other | ⟨obj, rfl⟩
  · rw [validate_of_not_object crates other] at rejected
    cases rejected
    exact List.cons_ne_nil _ _
  · obtain ⟨_, _, _, nonempty⟩ := (validate_object_rejects_iff crates).mp rejected
    exact nonempty

/-! ## The least event -/

/-- The required attributes and nothing else, `specversion` at its only value. -/
def leastEvent (id source kind subject : String) : Value :=
  .object [("id", .string id), ("source", .string source), ("specversion", .string "1.0"),
    ("subject", .string subject), ("type", .string kind)]

theorem leastEvent_canonical (id source kind subject : String) :
    Theory.Json.Canonical (leastEvent id source kind subject) := by
  refine ⟨?_, trivial, trivial, trivial, trivial, trivial, trivial⟩
  simp only [Theory.Json.Ascending, List.pairwise_cons, List.mem_cons, List.not_mem_nil, or_false,
    forall_eq_or_imp, forall_eq, IsEmpty.forall_iff, implies_true, List.Pairwise.nil, and_true]
  decide

/-- What the least event is taken for. -/
def leastSheep (id source kind subject : String) : Sheep where
  id := id
  source := source
  type := kind
  specversion := "1.0"
  subject := subject
  time := none
  data := none
  datacontenttype := none
  dataschema := none

theorem validate_leastEvent {id source kind subject : String} (named : id ≠ "") (from_ : source ≠ "")
    (typed : kind ≠ "") (about : subject ≠ "") :
    validate crates (leastEvent id source kind subject) =
      .ok (.ok (leastSheep id source kind subject)) := by
  refine (validate_object_accepts_iff crates).mpr ⟨none, rfl, ?_, ?_⟩
  · simp [defects, verdicts, requiredDefect, optionalDefect, formatDefect, text, List.lookup, named,
      from_, typed, about]
  · simp [sheepOf, leastSheep, text, List.lookup, named, from_, typed, about]

end Spec

end CountingSheep.Ingest
