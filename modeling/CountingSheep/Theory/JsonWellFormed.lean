/-
# CountingSheep.Theory.JsonWellFormed — what the reader accepts is well formed

A value that `readText` returns is canonical, and nested no deeper than the limit:
its objects list their members once and in order, because they are built by
insertion; its integers have 64 bits and its floats are finite, because anything
else is refused or rounded first; and every level costs one of the limit.

* `readText_wellFormed`: the whole text.
-/
import CountingSheep.Theory.JsonText

namespace CountingSheep.Theory.JsonText

open Json

set_option autoImplicit false

/-! ## Numbers -/

section Numbers

variable {decimals : DecimalReader}

theorem numberOf_representable {negative : Bool} {whole fraction : List Char} {exponent : Option Int}
    {n : Number} (denoted : numberOf decimals negative whole fraction exponent = some n) : n.Representable := by
  unfold numberOf at denoted
  generalize (if negative then -(digitsValue whole : Int) else digitsValue whole) = value at denoted
  by_cases fits : fraction = [] ∧ exponent = none ∧ -2 ^ 63 ≤ value ∧ value < 2 ^ 64 ∧
    ¬ (negative = true ∧ value = 0)
  · rw [if_pos fits] at denoted
    cases denoted
    exact ⟨fits.2.2.1, fits.2.2.2.1⟩
  · rw [if_neg fits] at denoted
    obtain ⟨bits, rounded, rfl⟩ := Option.map_eq_some_iff.mp denoted
    exact decimals.finite rounded

theorem readNumber_representable {text rest : List Char} {n : Number}
    (read : readNumber decimals text = some (n, rest)) : n.Representable := by
  unfold readNumber at read
  simp only at read
  split at read
  · cases read
  · simp only [Option.bind_eq_bind, Option.bind_eq_some_iff, Option.some.injEq, Prod.mk.injEq] at read
    obtain ⟨_, -, _, -, _, denoted, rfl, -⟩ := read
    exact numberOf_representable denoted

end Numbers

/-! ## Members -/

section Members

variable {K V : Type} [LinearOrder K] {key : K} {v : V} {members : List (K × V)}

theorem mem_insert {m : K × V} (member : m ∈ Json.insert key v members) : m = (key, v) ∨ m ∈ members := by
  induction members with
  | nil => exact .inl (List.mem_singleton.mp member)
  | cons first rest ih =>
      obtain ⟨k, w⟩ := first
      simp only [Json.insert] at member
      split_ifs at member
      · simpa only [List.mem_cons] using member
      · rcases List.mem_cons.mp member with here | later
        · exact .inl here
        · exact .inr (List.mem_cons_of_mem _ later)
      · rcases List.mem_cons.mp member with rfl | later
        · exact .inr List.mem_cons_self
        · exact (ih later).imp id (List.mem_cons_of_mem _)

theorem ascending_insert (sorted : Ascending members) : Ascending (Json.insert key v members) := by
  induction members with
  | nil => exact List.pairwise_singleton _ _
  | cons first rest ih =>
      obtain ⟨k, w⟩ := first
      obtain ⟨least, tail⟩ := List.pairwise_cons.mp sorted
      simp only [Json.insert]
      split_ifs with before same
      · refine List.pairwise_cons.mpr ⟨?_, sorted⟩
        intro m member
        rcases List.mem_cons.mp member with rfl | later
        · exact before
        · exact before.trans (least m later)
      · subst same
        exact List.pairwise_cons.mpr ⟨least, tail⟩
      · refine List.pairwise_cons.mpr ⟨?_, ih tail⟩
        intro m member
        rcases mem_insert member with rfl | later
        · exact lt_of_le_of_ne (not_lt.mp before) (Ne.symm same)
        · exact least m later

/-- Members inserted one after another: in order, and each one of them. -/
theorem foldl_insert_wellFormed {done : List (K × V)} (sorted : Ascending done) :
    Ascending (members.foldl (fun m p => Json.insert p.1 p.2 m) done) ∧
      ∀ m ∈ members.foldl (fun m p => Json.insert p.1 p.2 m) done, m ∈ done ∨ m ∈ members := by
  induction members generalizing done with
  | nil => exact ⟨sorted, fun m member => .inl member⟩
  | cons first rest ih =>
      obtain ⟨ascending, from_either⟩ := @ih (Json.insert first.1 first.2 done) (ascending_insert sorted)
      refine ⟨ascending, fun m member => ?_⟩
      rcases from_either m member with inserted | later
      · rcases mem_insert inserted with rfl | earlier
        · exact .inr List.mem_cons_self
        · exact .inl earlier
      · exact .inr (List.mem_cons_of_mem _ later)

end Members

/-! ## Values -/

/-- A value the reader may return under a nesting limit. -/
structure WellFormed (limit : Nat) (v : Value) : Prop where
  canonical : Canonical v
  within : depth v ≤ limit

theorem canonicalElements_iff {elements : List Value} :
    CanonicalElements elements ↔ ∀ v ∈ elements, Canonical v := by
  induction elements with
  | nil => simp [CanonicalElements]
  | cons v rest ih => simp [CanonicalElements, ih]

theorem canonicalMembers_iff {members : List (String × Value)} :
    CanonicalMembers members ↔ ∀ m ∈ members, Canonical m.2 := by
  induction members with
  | nil => simp [CanonicalMembers]
  | cons m rest ih => simp [CanonicalMembers, ih]

theorem depthElements_le_iff {elements : List Value} {limit : Nat} :
    depthElements elements ≤ limit ↔ ∀ v ∈ elements, depth v ≤ limit := by
  induction elements with
  | nil => simp [depthElements]
  | cons v rest ih => simp [depthElements, ih]

theorem depthMembers_le_iff {members : List (String × Value)} {limit : Nat} :
    depthMembers members ≤ limit ↔ ∀ m ∈ members, depth m.2 ≤ limit := by
  induction members with
  | nil => simp [depthMembers]
  | cons m rest ih => simp [depthMembers, ih]

theorem wellFormed_array_iff {limit : Nat} {elements : List Value} :
    WellFormed (limit + 1) (.array elements) ↔ ∀ v ∈ elements, WellFormed limit v := by
  constructor
  · rintro ⟨canonical, within⟩ v member
    have shallow : depthElements elements ≤ limit := Nat.le_of_succ_le_succ within
    exact ⟨canonicalElements_iff.mp canonical v member, depthElements_le_iff.mp shallow v member⟩
  · intro all
    refine ⟨canonicalElements_iff.mpr fun v member => (all v member).canonical, ?_⟩
    exact Nat.succ_le_succ (depthElements_le_iff.mpr fun v member => (all v member).within)

theorem wellFormed_objectOf {limit : Nat} {members : List (String × Value)}
    (all : ∀ m ∈ members, WellFormed limit m.2) : WellFormed (limit + 1) (.objectOf members) := by
  obtain ⟨ascending, from_either⟩ :=
    @foldl_insert_wellFormed _ _ _ members [] List.Pairwise.nil
  have each : ∀ m ∈ members.foldl (fun m p => Json.insert p.1 p.2 m) [], WellFormed limit m.2 := by
    intro m member
    rcases from_either m member with none | member
    · cases none
    · exact all m member
  refine ⟨⟨ascending, canonicalMembers_iff.mpr fun m member => (each m member).canonical⟩, ?_⟩
  exact Nat.succ_le_succ (depthMembers_le_iff.mpr fun m member => (each m member).within)

/-! ## The reader -/

/-- What the four readers return with this much fuel. -/
structure ReadsWellFormed (decimals : DecimalReader) (fuel : Nat) : Prop where
  value : ∀ limit text v rest, readValue decimals fuel limit text = some (v, rest) → WellFormed limit v
  elements : ∀ limit text vs rest, readElements decimals fuel limit text = some (vs, rest) →
    ∀ v ∈ vs, WellFormed limit v
  member : ∀ limit text m rest, readMember decimals fuel limit text = some (m, rest) → WellFormed limit m.2
  members : ∀ limit text ms rest, readMembers decimals fuel limit text = some (ms, rest) →
    ∀ m ∈ ms, WellFormed limit m.2

section Step

variable {decimals : DecimalReader} {fuel : Nat} (ih : ReadsWellFormed decimals fuel)
include ih

theorem readElements_step (limit : Nat) (text : List Char) (vs : List Value) (rest : List Char)
    (read : readElements decimals (fuel + 1) limit text = some (vs, rest)) : ∀ v ∈ vs, WellFormed limit v := by
  unfold readElements at read
  split at read
  · cases read
    simp
  · simp only [Option.bind_eq_bind, Option.bind_eq_some_iff, Option.some.injEq, Prod.mk.injEq] at read
    obtain ⟨⟨v, after⟩, first, ⟨later, stop⟩, others, rfl, -⟩ := read
    exact List.forall_mem_cons.mpr ⟨ih.value _ _ _ _ first, ih.elements _ _ _ _ others⟩
  · cases read

theorem readMembers_step (limit : Nat) (text : List Char) (ms : List (String × Value))
    (rest : List Char) (read : readMembers decimals (fuel + 1) limit text = some (ms, rest)) :
    ∀ m ∈ ms, WellFormed limit m.2 := by
  unfold readMembers at read
  split at read
  · cases read
    simp
  · simp only [Option.bind_eq_bind, Option.bind_eq_some_iff, Option.some.injEq, Prod.mk.injEq] at read
    obtain ⟨⟨m, after⟩, first, ⟨later, stop⟩, others, rfl, -⟩ := read
    exact List.forall_mem_cons.mpr ⟨ih.member _ _ _ _ first, ih.members _ _ _ _ others⟩
  · cases read

theorem readMember_step (limit : Nat) (text : List Char) (m : String × Value) (rest : List Char)
    (read : readMember decimals (fuel + 1) limit text = some (m, rest)) : WellFormed limit m.2 := by
  unfold readMember at read
  split at read
  · simp only [Option.bind_eq_bind, Option.bind_eq_some_iff] at read
    obtain ⟨⟨key, after⟩, -, read⟩ := read
    simp only at read
    split at read
    · simp only [Option.bind_eq_some_iff, Option.some.injEq, Prod.mk.injEq] at read
      obtain ⟨⟨v, stop⟩, first, rfl, -⟩ := read
      exact ih.value _ _ _ _ first
    · cases read
  · cases read

theorem readValue_step (limit : Nat) (text : List Char) (v : Value) (rest : List Char)
    (read : readValue decimals (fuel + 1) limit text = some (v, rest)) : WellFormed limit v := by
  have scalar {v : Value} (canonical : Canonical v) (flat : depth v = 0) : WellFormed limit v :=
    ⟨canonical, flat.le.trans (Nat.zero_le _)⟩
  unfold readValue at read
  split at read
  · cases read
    exact scalar trivial rfl
  · cases read
    exact scalar trivial rfl
  · cases read
    exact scalar trivial rfl
  · obtain ⟨out, -, same⟩ := Option.map_eq_some_iff.mp read
    cases same
    exact scalar trivial rfl
  · cases limit with
    | zero => cases read
    | succ limit =>
        simp only at read
        split at read
        · cases read
          exact wellFormed_array_iff.mpr (by simp)
        · simp only [Option.bind_eq_bind, Option.bind_eq_some_iff, Option.some.injEq,
            Prod.mk.injEq] at read
          obtain ⟨⟨v, after⟩, first, ⟨later, stop⟩, others, rfl, -⟩ := read
          exact wellFormed_array_iff.mpr
            (List.forall_mem_cons.mpr ⟨ih.value _ _ _ _ first, ih.elements _ _ _ _ others⟩)
  · cases limit with
    | zero => cases read
    | succ limit =>
        simp only at read
        split at read
        · cases read
          exact @wellFormed_objectOf limit [] (by simp)
        · simp only [Option.bind_eq_bind, Option.bind_eq_some_iff, Option.some.injEq,
            Prod.mk.injEq] at read
          obtain ⟨⟨m, after⟩, first, ⟨later, stop⟩, others, rfl, -⟩ := read
          exact wellFormed_objectOf
            (List.forall_mem_cons.mpr ⟨ih.member _ _ _ _ first, ih.members _ _ _ _ others⟩)
  · obtain ⟨⟨n, after⟩, number, same⟩ := Option.map_eq_some_iff.mp read
    cases same
    exact scalar (readNumber_representable number) rfl

end Step

theorem readsWellFormed (decimals : DecimalReader) (fuel : Nat) : ReadsWellFormed decimals fuel := by
  induction fuel with
  | zero => constructor <;> intro _ _ _ _ read <;> cases read
  | succ fuel ih => exact ⟨readValue_step ih, readElements_step ih, readMember_step ih, readMembers_step ih⟩

/-- **What is read is canonical and within the limit.** -/
theorem readText_wellFormed {decimals : DecimalReader} {limit : Nat} {text : List Char} {v : Value}
    (read : readText decimals limit text = some v) : WellFormed limit v := by
  unfold readText at read
  split at read
  · next out rest first =>
      split_ifs at read
      cases read
      exact (readsWellFormed decimals _).value _ _ _ _ first
  · cases read

end CountingSheep.Theory.JsonText
