/-
# CountingSheep.Theory.Margins — a list without its margins, and up to a separator

`strip p` drops the letters satisfying `p` from both ends of a list, and
`upTo sep` keeps what comes before the first `sep`. Both cut a list in two or
three known parts (`exists_margins`, `upTo_split`) and are computed from any such
cut (`strip_append_left`, `strip_append_right`, `upTo_append`). Both commute with a
change of alphabet that respects what they look for (`strip_map`, `upTo_map`).
-/
import Mathlib

namespace CountingSheep.Theory.Margins

set_option autoImplicit false

universe u v

variable {α : Type u} {β : Type v} {p : α → Bool} {l before after : List α}

/-! ## Both ends -/

/-- Without the letters satisfying `p` at either end. -/
def strip (p : α → Bool) (l : List α) : List α := (l.dropWhile p).rdropWhile p

theorem exists_margins (p : α → Bool) (l : List α) : ∃ before after,
    l = before ++ strip p l ++ after ∧ (∀ c ∈ before, p c = true) ∧ ∀ c ∈ after, p c = true := by
  refine ⟨l.takeWhile p, (l.dropWhile p).rtakeWhile p, ?_, ?_, ?_⟩
  · rw [strip, List.append_assoc, List.rdropWhile_append_rtakeWhile,
      List.takeWhile_append_dropWhile]
  · intro c member
    exact List.mem_takeWhile_imp member
  · intro c member
    exact List.mem_rtakeWhile_imp member

theorem strip_append_left (margin : ∀ c ∈ before, p c = true) :
    strip p (before ++ l) = strip p l := by
  rw [strip, List.dropWhile_append_of_pos margin, strip]

theorem strip_append_right (margin : ∀ c ∈ after, p c = true) :
    strip p (l ++ after) = strip p l := by
  have tail : after.dropWhile p = [] := List.dropWhile_eq_nil_iff.mpr margin
  rw [strip, strip, List.dropWhile_append]
  by_cases blank : l.dropWhile p = []
  · simp [blank, tail]
  · have inner : (l.dropWhile p).isEmpty = false := by simpa using blank
    rw [inner, if_neg Bool.false_ne_true, List.rdropWhile, List.reverse_append,
      List.dropWhile_append_of_pos (by simpa using margin), List.rdropWhile]

theorem strip_of_none (bare : ∀ c ∈ l, p c = false) : strip p l = l := by
  have front : l.dropWhile p = l := by
    cases l with
    | nil => rfl
    | cons c rest => rw [List.dropWhile_cons_of_neg (by simp [bare c List.mem_cons_self])]
  rw [strip, front, List.rdropWhile_eq_self_iff]
  intro nonempty
  simp [bare _ (List.getLast_mem nonempty)]

theorem span_append {rest : List α} (margin : ∀ c ∈ before, p c = true)
    (stop : ∀ c ∈ rest.head?, p c = false) : (before ++ rest).span p = (before, rest) := by
  have none_more : rest.takeWhile p = [] ∧ rest.dropWhile p = rest := by
    cases rest with
    | nil => exact ⟨rfl, rfl⟩
    | cons c rest => simp [stop c rfl]
  rw [List.span_eq_takeWhile_dropWhile, List.takeWhile_append_of_pos margin,
    List.dropWhile_append_of_pos margin, none_more.1, none_more.2, List.append_nil]

theorem strip_eq_nil_iff : strip p l = [] ↔ ∀ c ∈ l, p c = true := by
  constructor
  · intro empty
    obtain ⟨before, after, whole, front, back⟩ := exists_margins p l
    rw [whole, empty, List.append_nil]
    intro c member
    rcases List.mem_append.mp member with early | late
    · exact front c early
    · exact back c late
  · intro blank
    rw [strip, List.dropWhile_eq_nil_iff.mpr blank, List.rdropWhile_nil]

/-- Letter by letter, `f` takes what `q` strips to what `p` strips. -/
theorem strip_map {f : β → α} {q : β → Bool} {l : List β} (same : ∀ b ∈ l, p (f b) = q b) :
    strip p (l.map f) = (strip q l).map f := by
  have drop : ∀ l : List β, (∀ b ∈ l, p (f b) = q b) →
      (l.map f).dropWhile p = (l.dropWhile q).map f := by
    intro l same
    induction l with
    | nil => rfl
    | cons b rest ih =>
        have head := same b List.mem_cons_self
        by_cases stripped : q b = true
        · rw [List.map_cons, List.dropWhile_cons_of_pos (by rw [head, stripped]),
            List.dropWhile_cons_of_pos stripped]
          exact ih fun b later => same b (List.mem_cons_of_mem _ later)
        · rw [List.map_cons, List.dropWhile_cons_of_neg (by rw [head]; exact stripped),
            List.dropWhile_cons_of_neg stripped, List.map_cons]
  have inner : ∀ b ∈ (l.dropWhile q).reverse, p (f b) = q b := by
    intro b member
    exact same b ((List.dropWhile_suffix q).subset (List.mem_reverse.mp member))
  rw [strip, strip, drop l same, List.rdropWhile, List.rdropWhile, ← List.map_reverse,
    drop _ inner, List.map_reverse]

/-! ## Up to a separator -/

section UpTo

variable [DecidableEq α] {sep : α}

/-- What comes before the first `sep`. -/
def upTo (sep : α) (l : List α) : List α := l.takeWhile (· ≠ sep)

theorem upTo_append {rest : List α} (first : sep ∉ before)
    (opens : rest = [] ∨ ∃ more, rest = sep :: more) : upTo sep (before ++ rest) = before := by
  have kept : ∀ c ∈ before, decide (c ≠ sep) = true := by
    intro c member
    simp only [decide_eq_true_eq]
    rintro rfl
    exact first member
  rw [upTo, List.takeWhile_append_of_pos kept]
  rcases opens with rfl | ⟨more, rfl⟩
  · rw [List.takeWhile_nil, List.append_nil]
  · rw [List.takeWhile_cons_of_neg (by simp), List.append_nil]

theorem upTo_split (sep : α) (l : List α) : ∃ rest, l = upTo sep l ++ rest ∧ sep ∉ upTo sep l ∧
    (rest = [] ∨ ∃ more, rest = sep :: more) := by
  refine ⟨l.dropWhile (· ≠ sep), List.takeWhile_append_dropWhile.symm, ?_, ?_⟩
  · intro member
    have kept := List.mem_takeWhile_imp member
    simp at kept
  · cases tail : l.dropWhile (· ≠ sep) with
    | nil => exact .inl rfl
    | cons c more =>
        have stopped := List.head_dropWhile_not (· ≠ sep) (by rw [tail]; simp : l.dropWhile (· ≠ sep) ≠ [])
        simp only [tail, List.head_cons, decide_eq_false_iff_not, ne_eq, not_not] at stopped
        exact .inr ⟨more, by rw [stopped]⟩

theorem upTo_subset : upTo sep l ⊆ l := (List.takeWhile_prefix _).subset

end UpTo

theorem upTo_map [DecidableEq α] [DecidableEq β] {f : β → α} {sep : α} {sep' : β} {l : List β}
    (same : ∀ b ∈ l, f b = sep ↔ b = sep') : upTo sep (l.map f) = (upTo sep' l).map f := by
  obtain ⟨rest, whole, first, opens⟩ := upTo_split sep' l
  have inside : ∀ b ∈ upTo sep' l, f b = sep ↔ b = sep' := fun b member => same b (upTo_subset member)
  have image : l.map f = (upTo sep' l).map f ++ rest.map f := by rw [← List.map_append, ← whole]
  rw [image]
  apply upTo_append
  · intro member
    obtain ⟨b, here, hits⟩ := List.mem_map.mp member
    rw [(inside b here).mp hits] at here
    exact first here
  · rcases opens with rfl | ⟨more, rfl⟩
    · exact .inl rfl
    · have marked : f sep' = sep := (same sep' (by rw [whole]; simp)).mpr rfl
      exact .inr ⟨more.map f, by rw [List.map_cons, marked]⟩

end CountingSheep.Theory.Margins
