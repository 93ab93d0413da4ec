/-
# CountingSheep.Theory.Json — JSON values as an ordered-map reader holds them

A `Value` is what a JSON text denotes once read: an object is a finite map, held
as its members in ascending key order, so that one map has one representation
(`Canonical`). `insert` is the map's insertion, a later member replacing an
earlier one of the same name; `objectOf` builds an object from members in any
order.

* `lookup_insert`: insertion is the map update.
* `foldl_insert_ascending`: inserting the members of an ordered map gives that map
  back.
* `depth`: how far arrays and objects are nested; a reader with a nesting limit
  refuses deeper values.
* `mapFloats`: a value with its floats replaced, which is what a writer and a reader
  that round differently make of it together.
-/
import Mathlib

namespace CountingSheep.Theory.Json

set_option autoImplicit false

/-! ## Finite maps as ascending member lists -/

section Members

variable {K V : Type} [LinearOrder K]

def Ascending (members : List (K × V)) : Prop := members.Pairwise fun a b => a.1 < b.1

/-- Insert a member, replacing one of the same key. -/
def insert (key : K) (v : V) : List (K × V) → List (K × V)
  | [] => [(key, v)]
  | (k, w) :: rest =>
      if key < k then (key, v) :: (k, w) :: rest
      else if key = k then (key, v) :: rest
      else (k, w) :: insert key v rest

theorem lookup_cons_if (key query : K) (v : V) (rest : List (K × V)) :
    ((key, v) :: rest).lookup query = if query = key then some v else rest.lookup query := by
  rw [List.lookup_cons]
  by_cases same : query = key
  · simp [same]
  · simp [same, beq_eq_false_iff_ne.mpr same]

theorem lookup_insert (key query : K) (v : V) (members : List (K × V)) :
    (insert key v members).lookup query = if query = key then some v else members.lookup query := by
  induction members with
  | nil => simp only [insert, lookup_cons_if]
  | cons member rest ih =>
      obtain ⟨k, w⟩ := member
      simp only [insert]
      split
      · simp only [lookup_cons_if]
      · split
        · rename_i same
          subst same
          simp only [lookup_cons_if]
          split <;> rfl
        · rename_i different
          simp only [lookup_cons_if, ih]
          by_cases here : query = k
          · simp [here, Ne.symm different]
          · simp [here]

theorem insert_last {key : K} {v : V} {members : List (K × V)}
    (last : ∀ m ∈ members, m.1 < key) : insert key v members = members ++ [(key, v)] := by
  induction members with
  | nil => rfl
  | cons first rest ih =>
      obtain ⟨k, w⟩ := first
      have before : k < key := last (k, w) List.mem_cons_self
      simp only [insert, if_neg (not_lt.mpr before.le), if_neg (Ne.symm before.ne),
        ih fun m member => last m (List.mem_cons_of_mem _ member), List.cons_append]

theorem foldl_insert_ascending {done members : List (K × V)} (sorted : Ascending (done ++ members)) :
    members.foldl (fun m p => insert p.1 p.2 m) done = done ++ members := by
  induction members generalizing done with
  | nil => simp
  | cons first rest ih =>
      have last : ∀ m ∈ done, m.1 < first.1 := fun m member =>
        (List.pairwise_append.mp sorted).2.2 m member first List.mem_cons_self
      rw [List.foldl_cons, insert_last last, ih (by simpa using sorted)]
      simp

end Members

/-! ## Values -/

/-- An integer of 64 bits, signed or unsigned, or a binary64 by its bits. -/
inductive Number where
  | int (n : Int)
  | float (bits : BitVec 64)
  deriving DecidableEq, Repr

namespace Number

/-- Neither infinite nor a NaN: the exponent field is not all ones. -/
def Finite (bits : BitVec 64) : Prop := bits.toNat / 2 ^ 52 % 2 ^ 11 ≠ 2 ^ 11 - 1

instance (bits : BitVec 64) : Decidable (Finite bits) := inferInstanceAs (Decidable (_ ≠ _))

def Representable : Number → Prop
  | .int n => -2 ^ 63 ≤ n ∧ n < 2 ^ 64
  | .float bits => Finite bits

end Number

inductive Value where
  | null
  | bool (b : Bool)
  | number (n : Number)
  | string (s : String)
  | array (elements : List Value)
  | object (members : List (String × Value))
  deriving Repr

namespace Value

def asObject : Value → Option (List (String × Value))
  | .object members => some members
  | _ => none

theorem object_or_not (v : Value) : v.asObject = none ∨ ∃ members, v = .object members := by
  cases v <;> simp [asObject]

def isNull : Value → Bool
  | .null => true
  | _ => false

/-- The object with these members, the last of each name. -/
def objectOf (members : List (String × Value)) : Value :=
  .object (members.foldl (fun m p => insert p.1 p.2 m) [])

end Value

/-! ## Canonical values and nesting -/

mutual

/-- Every object lists its members in ascending key order, every number is one
the reader can hold. -/
def Canonical : Value → Prop
  | .number n => n.Representable
  | .array elements => CanonicalElements elements
  | .object members => Ascending members ∧ CanonicalMembers members
  | .null | .bool _ | .string _ => True

def CanonicalElements : List Value → Prop
  | [] => True
  | v :: rest => Canonical v ∧ CanonicalElements rest

def CanonicalMembers : List (String × Value) → Prop
  | [] => True
  | (_, v) :: rest => Canonical v ∧ CanonicalMembers rest

end

mutual

/-- Nested arrays and objects, from `0` for a scalar. -/
def depth : Value → Nat
  | .array elements => depthElements elements + 1
  | .object members => depthMembers members + 1
  | .null | .bool _ | .number _ | .string _ => 0

def depthElements : List Value → Nat
  | [] => 0
  | v :: rest => max (depth v) (depthElements rest)

def depthMembers : List (String × Value) → Nat
  | [] => 0
  | (_, v) :: rest => max (depth v) (depthMembers rest)

end

/-! ## Floats replaced -/

mutual

/-- The value with `f` of every float in its place, if `f` has an answer for each. -/
def mapFloats (f : BitVec 64 → Option (BitVec 64)) : Value → Option Value
  | .number (.float bits) => (f bits).map fun bits => .number (.float bits)
  | .number (.int n) => some (.number (.int n))
  | .array elements => (mapFloatsElements f elements).map .array
  | .object members => (mapFloatsMembers f members).map .object
  | .null => some .null
  | .bool b => some (.bool b)
  | .string s => some (.string s)

def mapFloatsElements (f : BitVec 64 → Option (BitVec 64)) : List Value → Option (List Value)
  | [] => some []
  | v :: rest =>
      (mapFloats f v).bind fun v => (mapFloatsElements f rest).map fun rest => v :: rest

def mapFloatsMembers (f : BitVec 64 → Option (BitVec 64)) :
    List (String × Value) → Option (List (String × Value))
  | [] => some []
  | (key, v) :: rest =>
      (mapFloats f v).bind fun v => (mapFloatsMembers f rest).map fun rest => (key, v) :: rest

end

section MapFloats

variable {f : BitVec 64 → Option (BitVec 64)}

theorem mapFloatsElements_cons_eq_some_iff {v : Value} {rest elements : List Value} :
    mapFloatsElements f (v :: rest) = some elements ↔
      ∃ v' rest', mapFloats f v = some v' ∧ mapFloatsElements f rest = some rest' ∧
        v' :: rest' = elements := by
  simp only [mapFloatsElements, Option.bind_eq_some_iff, Option.map_eq_some_iff,
    exists_and_left]

theorem mapFloatsMembers_cons_eq_some_iff {key : String} {v : Value}
    {rest members : List (String × Value)} :
    mapFloatsMembers f ((key, v) :: rest) = some members ↔
      ∃ v' rest', mapFloats f v = some v' ∧ mapFloatsMembers f rest = some rest' ∧
        (key, v') :: rest' = members := by
  simp only [mapFloatsMembers, Option.bind_eq_some_iff, Option.map_eq_some_iff,
    exists_and_left]

mutual

/-- Nothing changes where every float is its own answer. -/
theorem mapFloats_of_fixed (fixed : ∀ bits, Number.Finite bits → f bits = some bits) :
    ∀ v : Value, Canonical v → mapFloats f v = some v
  | .number (.float bits), canonical => by rw [mapFloats, fixed bits canonical, Option.map_some]
  | .number (.int _), _ | .null, _ | .bool _, _ | .string _, _ => by rw [mapFloats]
  | .array elements, canonical => by
      rw [mapFloats, mapFloatsElements_of_fixed fixed elements canonical, Option.map_some]
  | .object members, canonical => by
      rw [mapFloats, mapFloatsMembers_of_fixed fixed members canonical.2, Option.map_some]

theorem mapFloatsElements_of_fixed (fixed : ∀ bits, Number.Finite bits → f bits = some bits) :
    ∀ elements : List Value, CanonicalElements elements → mapFloatsElements f elements = some elements
  | [], _ => by rw [mapFloatsElements]
  | v :: rest, canonical => mapFloatsElements_cons_eq_some_iff.mpr
      ⟨v, rest, mapFloats_of_fixed fixed v canonical.1,
        mapFloatsElements_of_fixed fixed rest canonical.2, rfl⟩

theorem mapFloatsMembers_of_fixed (fixed : ∀ bits, Number.Finite bits → f bits = some bits) :
    ∀ members : List (String × Value), CanonicalMembers members →
      mapFloatsMembers f members = some members
  | [], _ => by rw [mapFloatsMembers]
  | (_, v) :: rest, canonical => mapFloatsMembers_cons_eq_some_iff.mpr
      ⟨v, rest, mapFloats_of_fixed fixed v canonical.1,
        mapFloatsMembers_of_fixed fixed rest canonical.2, rfl⟩

end

mutual

theorem depth_mapFloats : ∀ {v w : Value}, mapFloats f v = some w → depth w = depth v
  | .number (.float bits), w, mapped => by
      rw [mapFloats, Option.map_eq_some_iff] at mapped
      obtain ⟨_, -, rfl⟩ := mapped
      rfl
  | .number (.int _), w, mapped | .null, w, mapped | .bool _, w, mapped | .string _, w, mapped => by
      rw [mapFloats, Option.some.injEq] at mapped
      subst mapped
      rfl
  | .array elements, w, mapped => by
      rw [mapFloats, Option.map_eq_some_iff] at mapped
      obtain ⟨elements', mapped, rfl⟩ := mapped
      exact congrArg (· + 1) (depth_mapFloatsElements mapped)
  | .object members, w, mapped => by
      rw [mapFloats, Option.map_eq_some_iff] at mapped
      obtain ⟨members', mapped, rfl⟩ := mapped
      exact congrArg (· + 1) (depth_mapFloatsMembers mapped)

theorem depth_mapFloatsElements : ∀ {elements elements' : List Value},
    mapFloatsElements f elements = some elements' → depthElements elements' = depthElements elements
  | [], elements', mapped => by
      rw [mapFloatsElements, Option.some.injEq] at mapped
      rw [← mapped]
  | v :: rest, elements', mapped => by
      obtain ⟨v', rest', first, others, rfl⟩ := mapFloatsElements_cons_eq_some_iff.mp mapped
      rw [depthElements, depthElements, depth_mapFloats first, depth_mapFloatsElements others]

theorem depth_mapFloatsMembers : ∀ {members members' : List (String × Value)},
    mapFloatsMembers f members = some members' → depthMembers members' = depthMembers members
  | [], members', mapped => by
      rw [mapFloatsMembers, Option.some.injEq] at mapped
      rw [← mapped]
  | (key, v) :: rest, members', mapped => by
      obtain ⟨v', rest', first, others, rfl⟩ := mapFloatsMembers_cons_eq_some_iff.mp mapped
      rw [depthMembers, depthMembers, depth_mapFloats first, depth_mapFloatsMembers others]

end

theorem keys_mapFloatsMembers {members members' : List (String × Value)}
    (mapped : mapFloatsMembers f members = some members') :
    members'.map Prod.fst = members.map Prod.fst := by
  induction members generalizing members' with
  | nil =>
      rw [mapFloatsMembers, Option.some.injEq] at mapped
      rw [← mapped]
  | cons first rest ih =>
      obtain ⟨key, v⟩ := first
      obtain ⟨v', rest', -, others, rfl⟩ := mapFloatsMembers_cons_eq_some_iff.mp mapped
      rw [List.map_cons, List.map_cons, ih others]

theorem ascending_iff_keys {K V : Type} [LinearOrder K] {members : List (K × V)} :
    Ascending members ↔ (members.map Prod.fst).Pairwise (· < ·) :=
  List.pairwise_map.symm

theorem ascending_mapFloatsMembers {members members' : List (String × Value)}
    (sorted : Ascending members) (mapped : mapFloatsMembers f members = some members') :
    Ascending members' := by
  rw [ascending_iff_keys, keys_mapFloatsMembers mapped]
  exact ascending_iff_keys.mp sorted

theorem isNull_mapFloats {v w : Value} (mapped : mapFloats f v = some w) : w.isNull = v.isNull := by
  cases v with
  | number n =>
      cases n with
      | int _ => cases mapped; rfl
      | float bits =>
          rw [mapFloats, Option.map_eq_some_iff] at mapped
          obtain ⟨_, -, rfl⟩ := mapped
          rfl
  | array elements =>
      rw [mapFloats, Option.map_eq_some_iff] at mapped
      obtain ⟨_, -, rfl⟩ := mapped
      rfl
  | object members =>
      rw [mapFloats, Option.map_eq_some_iff] at mapped
      obtain ⟨_, -, rfl⟩ := mapped
      rfl
  | null | bool _ | string _ =>
      cases mapped
      rfl

end MapFloats

theorem canonicalMembers_lookup {members : List (String × Value)} {key : String} {v : Value}
    (canonical : CanonicalMembers members) (found : members.lookup key = some v) : Canonical v := by
  induction members with
  | nil => simp at found
  | cons first rest ih =>
      obtain ⟨k, w⟩ := first
      rw [lookup_cons_if] at found
      split at found
      · cases found; exact canonical.1
      · exact ih canonical.2 found

theorem depth_lookup_le {members : List (String × Value)} {key : String} {v : Value}
    (found : members.lookup key = some v) : depth v ≤ depthMembers members := by
  induction members with
  | nil => simp at found
  | cons first rest ih =>
      obtain ⟨k, w⟩ := first
      rw [lookup_cons_if] at found
      simp only [depthMembers]
      split at found
      · cases found; exact le_max_left _ _
      · exact (ih found).trans (le_max_right _ _)

end CountingSheep.Theory.Json
