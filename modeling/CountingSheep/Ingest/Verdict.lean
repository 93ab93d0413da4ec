/-
# CountingSheep.Ingest.Verdict — every defect once, and none behind another

What an event must be, attribute by attribute: `Attribute.Positive` looks at the
one member of that name. `validate_reports` says the validator is their
conjunction, and its messages are one for each attribute that fails, in the order
of `Attribute.all`.

* `defects_eq_report`: the checks of `validate`, as one list over the attributes.
* `defect_eq_none_iff`: a check is silent exactly on a positive verdict.
* `report_around`: what changes in the messages when one attribute does.
-/
import CountingSheep.Ingest.Submission

namespace CountingSheep.Ingest

open Rust
open Theory.Json (Value)

set_option autoImplicit false

/-- The attributes that are checked, in the order of the checks. -/
inductive Attribute where
  | id | source | type | specversion | subject | datacontenttype | dataschema | time
  deriving DecidableEq

namespace Attribute

def name : Attribute → String
  | id => "id"
  | source => "source"
  | type => "type"
  | specversion => "specversion"
  | subject => "subject"
  | datacontenttype => "datacontenttype"
  | dataschema => "dataschema"
  | time => "time"

def all : List Attribute := [id, source, type, specversion, subject, datacontenttype, dataschema, time]

theorem mem_all (a : Attribute) : a ∈ all := by cases a <;> decide

theorem all_nodup : all.Nodup := by decide

end Attribute

/-! ## The verdicts -/

/-- A non-empty string. -/
def IsText (member : Option Value) : Prop := ∃ s, member = some (.string s) ∧ s ≠ ""

/-- Absent, `null`, or a non-empty string that is recognised. -/
def IsOptionalText (recognised : String → Bool) (member : Option Value) : Prop :=
  member = none ∨ member = some .null ∨
    ∃ s, member = some (.string s) ∧ s ≠ "" ∧ recognised s = true

namespace Attribute

variable (crates : Crates)

/-- What the member of an attribute must be. -/
def Positive : Attribute → Option Value → Prop
  | id, member | source, member | type, member | subject, member => IsText member
  | specversion, member => member = some (.string "1.0")
  | datacontenttype, member => IsOptionalText isMediaType member
  | dataschema, member => IsOptionalText isAbsoluteUri member
  | time, member => IsOptionalText (fun t => (crates.parseRfc3339 t).isSome) member

/-- The message a member of an attribute earns. -/
def defect : Attribute → Option Value → Option String
  | id => requiredDefect "id"
  | source => requiredDefect "source"
  | type => requiredDefect "type"
  | specversion => formatDefect (requiredDefect "specversion") (· = "1.0")
      fun sv => "specversion must be \"1.0\", got \"" ++ sv ++ "\""
  | subject => requiredDefect "subject"
  | datacontenttype => formatDefect (optionalDefect "datacontenttype") isMediaType
      fun _ => "datacontenttype" ++ " must be a media type"
  | dataschema => formatDefect (optionalDefect "dataschema") isAbsoluteUri
      fun _ => "dataschema" ++ " must be an absolute URI"
  | time => formatDefect (optionalDefect "time") (fun t => (crates.parseRfc3339 t).isSome)
      fun t => "time must be RFC 3339, got \"" ++ t ++ "\""

end Attribute

section Checks

variable {key : String} {member : Option Value}

theorem isText_iff : IsText member ↔ ∃ s, text member = some s := by
  simp only [IsText, text_eq_some_iff]

theorem isOptionalText_of_no_text {recognised : String → Bool} (blank : text member = none) :
    IsOptionalText recognised member ↔ member = none ∨ member = some .null := by
  unfold IsOptionalText
  constructor
  · intro sound
    rcases sound with absent | null | ⟨s, found, nonempty, -⟩
    · exact .inl absent
    · exact .inr null
    · rw [text_eq_some_iff.mpr ⟨found, nonempty⟩] at blank
      cases blank
  · intro missing
    exact missing.imp_right .inl

theorem formatDefect_optional_eq_none_iff {recognised : String → Bool} {message : String → String} :
    formatDefect (optionalDefect key) recognised message member = none ↔
      IsOptionalText recognised member := by
  unfold formatDefect
  cases held : text member with
  | none => exact (optionalDefect_of_no_text held).trans (isOptionalText_of_no_text held).symm
  | some s =>
      obtain ⟨rfl, nonempty⟩ := text_eq_some_iff.mp held
      by_cases sound : recognised s = true
      · simp [IsOptionalText, sound, nonempty]
      · simp [IsOptionalText, sound]

/-- The messages of the two plain checks begin with the name of the member. -/
theorem requiredDefect_names {message : String} (reported : requiredDefect key member = some message) :
    ∃ rest, message = key ++ " " ++ rest := by
  have spaced : ∀ words : String, key ++ (" " ++ words) = key ++ " " ++ words := fun words =>
    String.append_assoc.symm
  rcases member with _ | _ | _ | _ | s | _ | _ <;> simp only [requiredDefect, Option.some.injEq]
    at reported
  case some.string =>
    split at reported
    · cases reported
    · exact ⟨"must not be empty", by rw [← spaced, ← Option.some.inj reported]; rfl⟩
  case none | some.null => exact ⟨"is required", by rw [← spaced, ← reported]; rfl⟩
  all_goals exact ⟨"must be a string", by rw [← spaced, ← reported]; rfl⟩

theorem optionalDefect_names {message : String} (reported : optionalDefect key member = some message) :
    ∃ rest, message = key ++ " " ++ rest := by
  have required : requiredDefect key member = some message := by
    rcases member with _ | _ | _ | _ | s | _ | _ <;> simp_all [requiredDefect, optionalDefect]
  exact requiredDefect_names required

theorem formatDefect_names {defect : Option Value → Option String} {recognised : String → Bool}
    {words : String → String} {message : String}
    (plain : ∀ message, defect member = some message → ∃ rest, message = key ++ " " ++ rest)
    (formatted : ∀ s, ∃ rest, words s = key ++ " " ++ rest)
    (reported : formatDefect defect recognised words member = some message) :
    ∃ rest, message = key ++ " " ++ rest := by
  unfold formatDefect at reported
  split at reported
  · rename_i s held
    split at reported
    · cases reported
    · obtain ⟨rest, named⟩ := formatted s
      exact ⟨rest, by rw [← Option.some.inj reported, named]⟩
  · exact plain message reported

end Checks

namespace Attribute

variable {crates : Crates} {a : Attribute} {member : Option Value}

/-- **A check is silent exactly when its verdict is positive.** -/
theorem defect_eq_none_iff : a.defect crates member = none ↔ a.Positive crates member := by
  cases a with
  | id | source | type | subject => exact requiredDefect_eq_none_iff.trans isText_iff.symm
  | specversion =>
      refine formatDefect_required_eq_none_iff.trans ?_
      constructor
      · intro held
        obtain ⟨s, found, supported⟩ := held
        rw [(text_eq_some_iff.mp found).1, of_decide_eq_true supported]
        rfl
      · intro found
        exact ⟨"1.0", text_eq_some_iff.mpr ⟨found, by decide⟩, rfl⟩
  | datacontenttype | dataschema | time => exact formatDefect_optional_eq_none_iff

/-- **A message begins with the name of its attribute.** -/
theorem defect_names {message : String} (reported : a.defect crates member = some message) :
    ∃ rest, message = a.name ++ " " ++ rest := by
  cases a with
  | id | source | type | subject => exact requiredDefect_names reported
  | specversion =>
      refine formatDefect_names (fun _ => requiredDefect_names) ?_ reported
      intro sv
      refine ⟨"must be \"1.0\", got \"" ++ sv ++ "\"", ?_⟩
      simp only [name, ← String.append_assoc]
      rfl
  | datacontenttype =>
      refine formatDefect_names (fun _ => optionalDefect_names) ?_ reported
      intro _
      exact ⟨"must be a media type", rfl⟩
  | dataschema =>
      refine formatDefect_names (fun _ => optionalDefect_names) ?_ reported
      intro _
      exact ⟨"must be an absolute URI", rfl⟩
  | time =>
      refine formatDefect_names (fun _ => optionalDefect_names) ?_ reported
      intro t
      refine ⟨"must be RFC 3339, got \"" ++ t ++ "\"", ?_⟩
      simp only [name, ← String.append_assoc]
      rfl

end Attribute

/-! ## The messages of an event -/

section Report

variable {crates : Crates}

/-- The messages for an event: those of its attributes, in order. -/
def report (crates : Crates) (obj : Members) : List String :=
  Attribute.all.filterMap fun a => a.defect crates (obj.lookup a.name)

/-- The messages of an outcome. -/
def messagesOf : Except (List String) Sheep → List String
  | .ok _ => []
  | .error errors => errors

/-- The conversion to UTC succeeds on whatever the `time` parses to. -/
def TimeInRange (crates : Crates) (obj : Members) : Prop :=
  ∀ dt, (text (obj.lookup "time")).bind crates.parseRfc3339 = some dt → dt.InRange

theorem defects_eq_report (obj : Members) : defects crates obj = report crates obj := by
  rw [defects_eq_flatMap]
  have listed : verdicts crates obj =
      Attribute.all.map fun a => a.defect crates (obj.lookup a.name) := rfl
  rw [listed, List.flatMap_map, report, List.filterMap_eq_flatMap_toList]

theorem report_eq_nil_iff {obj : Members} :
    report crates obj = [] ↔ ∀ a : Attribute, a.Positive crates (obj.lookup a.name) := by
  simp only [report, List.filterMap_eq_nil_iff, Attribute.defect_eq_none_iff, Attribute.mem_all,
    true_implies]

/-- With the conversion in range, the validator returns. -/
theorem timeOf_of_inRange {obj : Members} (inRange : TimeInRange crates obj) :
    ∃ time, timeOf crates (obj.lookup "time") = .ok time := by
  cases converted : timeOf crates (obj.lookup "time") with
  | error panic =>
      obtain ⟨dt, held, outside, -⟩ := (timeOf_eq_error_iff crates).mp converted
      exact absurd (inRange dt held) outside
  | ok time => exact ⟨time, rfl⟩

/-- The outcome for an event whose `time` converts. -/
def outcomeOf (crates : Crates) (obj : Members) (time : Option OffsetDateTime) :
    Except (List String) Sheep :=
  if report crates obj = [] then .ok (sheepOf obj time) else .error (report crates obj)

theorem validate_eq_outcome {obj : Members} {time : Option OffsetDateTime}
    (converted : timeOf crates (obj.lookup "time") = .ok time) :
    validate crates (.object obj) = .ok (outcomeOf crates obj time) := by
  rw [validate_object, converted, defects_eq_report]
  rfl

theorem messagesOf_outcomeOf (obj : Members) (time : Option OffsetDateTime) :
    messagesOf (outcomeOf crates obj time) = report crates obj := by
  unfold outcomeOf
  split
  · rename_i clean
    exact clean.symm
  · rfl

theorem messagesOf_of_validate {obj : Members} {outcome : Except (List String) Sheep}
    (validated : validate crates (.object obj) = .ok outcome) :
    messagesOf outcome = report crates obj := by
  cases converted : timeOf crates (obj.lookup "time") with
  | error panic =>
      rw [validate_object, converted] at validated
      cases validated
  | ok time =>
      rw [validate_eq_outcome converted] at validated
      cases validated
      exact messagesOf_outcomeOf obj time

/-- Only the members of the eight names, and the data, reach the outcome. -/
theorem outcomeOf_congr {obj obj' : Members} (time : Option OffsetDateTime)
    (same : ∀ a : Attribute, obj'.lookup a.name = obj.lookup a.name) :
    outcomeOf crates obj' time = (outcomeOf crates obj time).map fun sheep =>
      { sheep with data := (obj'.lookup "data").filter fun v => !v.isNull } := by
  have reported : report crates obj' = report crates obj := by
    simp only [report, same]
  have id : obj'.lookup "id" = obj.lookup "id" := same .id
  have source : obj'.lookup "source" = obj.lookup "source" := same .source
  have type : obj'.lookup "type" = obj.lookup "type" := same .type
  have specversion : obj'.lookup "specversion" = obj.lookup "specversion" := same .specversion
  have subject : obj'.lookup "subject" = obj.lookup "subject" := same .subject
  have media : obj'.lookup "datacontenttype" = obj.lookup "datacontenttype" := same .datacontenttype
  have schema : obj'.lookup "dataschema" = obj.lookup "dataschema" := same .dataschema
  unfold outcomeOf
  rw [reported]
  by_cases clean : report crates obj = []
  · simp only [clean, if_true, Except.map, sheepOf, id, source, type, specversion, subject, media,
      schema]
  · simp only [clean, if_false, Except.map]

/-- The messages before and after those of one attribute come from the others. -/
theorem report_around (a : Attribute) {obj obj' : Members}
    (same : ∀ b : Attribute, b ≠ a → obj'.lookup b.name = obj.lookup b.name) :
    ∃ before after,
      report crates obj = before ++ (a.defect crates (obj.lookup a.name)).toList ++ after ∧
      report crates obj' = before ++ (a.defect crates (obj'.lookup a.name)).toList ++ after := by
  obtain ⟨before, after, split⟩ := List.append_of_mem a.mem_all
  have once := Attribute.all_nodup
  rw [split, List.nodup_middle, List.nodup_cons, List.mem_append, not_or] at once
  obtain ⟨⟨notBefore, notAfter⟩, -⟩ := once
  have kept : ∀ others : List Attribute, a ∉ others →
      others.filterMap (fun b => b.defect crates (obj'.lookup b.name)) =
        others.filterMap fun b => b.defect crates (obj.lookup b.name) := by
    intro others absent
    apply List.filterMap_congr
    intro b member
    rw [same b fun here => absent (here ▸ member)]
  refine ⟨before.filterMap fun b => b.defect crates (obj.lookup b.name),
    after.filterMap fun b => b.defect crates (obj.lookup b.name), ?_, ?_⟩
  · rw [report, split, List.filterMap_append, List.filterMap_cons]
    cases a.defect crates (obj.lookup a.name) <;> simp
  · rw [report, split, List.filterMap_append, List.filterMap_cons, kept before notBefore,
      kept after notAfter]
    cases a.defect crates (obj'.lookup a.name) <;> simp

/-- **Every defect is reported exactly once, and no defect masks another.** -/
theorem validate_reports (crates : Crates) {obj : Members} (inRange : TimeInRange crates obj) :
    ∃ outcome, validate crates (.object obj) = .ok outcome ∧
      ((∃ sheep, outcome = .ok sheep) ↔ ∀ a : Attribute, a.Positive crates (obj.lookup a.name)) ∧
      messagesOf outcome =
        Attribute.all.filterMap (fun a => a.defect crates (obj.lookup a.name)) ∧
      (∀ (a : Attribute) member, (a.defect crates member = none ↔ a.Positive crates member) ∧
        ∀ message, a.defect crates member = some message →
          ∃ rest, message = a.name ++ " " ++ rest) ∧
      (∀ (a : Attribute) (obj' : Members) outcome', validate crates (.object obj') = .ok outcome' →
        (∀ b : Attribute, b ≠ a → obj'.lookup b.name = obj.lookup b.name) →
        ∃ before after,
          messagesOf outcome = before ++ (a.defect crates (obj.lookup a.name)).toList ++ after ∧
          messagesOf outcome' = before ++ (a.defect crates (obj'.lookup a.name)).toList ++ after) ∧
      ∀ obj' : Members, (∀ a : Attribute, obj'.lookup a.name = obj.lookup a.name) →
        validate crates (.object obj') = .ok (outcome.map fun sheep =>
          { sheep with data := (obj'.lookup "data").filter fun v => !v.isNull }) := by
  obtain ⟨time, converted⟩ := timeOf_of_inRange inRange
  have messages : messagesOf (outcomeOf crates obj time) = report crates obj :=
    messagesOf_outcomeOf obj time
  refine ⟨outcomeOf crates obj time, validate_eq_outcome converted, ?_, messages, ?_, ?_, ?_⟩
  · rw [← report_eq_nil_iff]
    unfold outcomeOf
    by_cases clean : report crates obj = []
    · simp [clean]
    · simp [clean]
  · intro a member
    exact ⟨Attribute.defect_eq_none_iff, fun message => Attribute.defect_names⟩
  · intro a obj' outcome' validated same
    rw [messages, messagesOf_of_validate validated]
    exact report_around a same
  · intro obj' same
    have kept : timeOf crates (obj'.lookup "time") = .ok time := by
      rw [show obj'.lookup "time" = obj.lookup "time" from same .time, converted]
    rw [validate_eq_outcome kept, outcomeOf_congr time same]

/-- Three defects of an event without a time. -/
theorem validate_reports_three : ∃ outcome, validate reference (.object [
      ("dataschema", .string "schema"), ("id", .string ""), ("source", .string "/meadow"),
      ("specversion", .string "1.0"), ("subject", .string "flock-7")]) = .ok outcome ∧
    messagesOf outcome =
      ["id must not be empty", "type is required", "dataschema must be an absolute URI"] := by
  obtain ⟨outcome, validated, -, messages, -⟩ := @validate_reports reference [
    ("dataschema", .string "schema"), ("id", .string ""), ("source", .string "/meadow"),
    ("specversion", .string "1.0"), ("subject", .string "flock-7")]
    (by intro dt parsed; cases parsed)
  exact ⟨outcome, validated, messages⟩

end Report

end CountingSheep.Ingest
