import Accumulator.Toml.Order
import Mathlib.Logic.Basic

/-!
Values in order. Of ranked values that equal one another the first stays
(`Toml.exists_mem_distinct`, `Toml.pairwise_distinct`), and a list can be put in order exactly if its
values are of one sort (`Toml.sorted?_eq_none_iff`). What can be ordered is no collection, so that a
list of such values is never nested too deep to be shown (`Toml.Value.elementTexts_ne_nested`).
-/

set_option autoImplicit false
set_option relaxedAutoImplicit false

namespace Accumulator

namespace Toml

/-! ### Ranks -/

namespace Rank

theorem sort_eq_of_same {a b : Rank} (h : a.same b = true) : a.sort = b.sort := by
  simp only [same, Bool.and_eq_true, beq_iff_eq] at h
  exact h.1.1.1.1

theorem less_text_iff (s t : String) : (text s).less (text t) = true ↔ s < t :=
  decide_eq_true_iff

theorem same_text_iff (s t : String) : (text s).same (text t) = true ↔ s = t := by
  have hsort : ((text s).sort == (text t).sort) = true := rfl
  have hs : (text s != .noNumber) = true := rfl
  have ht : (text t != .noNumber) = true := rfl
  simp only [same, hsort, hs, ht, Bool.true_and, Bool.and_eq_true, Bool.not_eq_true',
    ← Bool.not_eq_true, less_text_iff, String.not_lt]
  exact ⟨fun h ↦ String.le_antisymm h.2 h.1, fun h ↦ h ▸ ⟨String.le_refl s, String.le_refl s⟩⟩

end Rank

/-! ### Lists without repetitions -/

section

variable {done entries : List (Rank × Value)} {entry : Rank × Value}

theorem mem_of_mem_distinct (h : entry ∈ distinct done entries) :
    entry ∈ done ∨ entry ∈ entries := by
  induction entries generalizing done with
  | nil => exact Or.inl (List.mem_reverse.mp h)
  | cons first rest ih =>
    rw [distinct] at h
    split at h
    · exact (ih h).imp_right (List.mem_cons_of_mem first)
    · rcases ih h with hdone | hrest
      · rcases List.mem_cons.mp hdone with rfl | hdone
        · exact Or.inr List.mem_cons_self
        · exact Or.inl hdone
      · exact Or.inr (List.mem_cons_of_mem first hrest)

theorem mem_distinct_of_done (h : entry ∈ done) : entry ∈ distinct done entries := by
  induction entries generalizing done with
  | nil => exact List.mem_reverse.mpr h
  | cons first rest ih =>
    rw [distinct]
    split
    · exact ih h
    · exact ih (List.mem_cons_of_mem first h)

/-- What is left out equals something that stays. -/
theorem exists_mem_distinct (h : entry ∈ entries) :
    ∃ kept ∈ distinct done entries, kept = entry ∨ kept.1.same entry.1 = true := by
  induction entries generalizing done with
  | nil => exact absurd h List.not_mem_nil
  | cons first rest ih =>
    rw [distinct]
    rcases List.mem_cons.mp h with rfl | hrest
    · split
      next hsame =>
        obtain ⟨earlier, hearlier, hequal⟩ := List.any_eq_true.mp hsame
        exact ⟨earlier, mem_distinct_of_done hearlier, Or.inr hequal⟩
      next => exact ⟨entry, mem_distinct_of_done List.mem_cons_self, Or.inl rfl⟩
    · split <;> exact ih hrest

theorem pairwise_distinct (h : done.Pairwise fun later earlier ↦ earlier.1.same later.1 = false) :
    (distinct done entries).Pairwise fun earlier later ↦ earlier.1.same later.1 = false := by
  induction entries generalizing done with
  | nil => exact List.pairwise_reverse.mpr h
  | cons first rest ih =>
    rw [distinct]
    split
    next => exact ih h
    next hnew =>
      have hfirst : ∀ earlier ∈ done, earlier.1.same first.1 = false := by
        rw [List.any_eq_true] at hnew
        intro earlier hearlier
        rw [← Bool.not_eq_true]
        exact fun hsame ↦ hnew ⟨earlier, hearlier, hsame⟩
      exact ih (List.pairwise_cons.mpr ⟨hfirst, h⟩)

/-! ### Lists in order -/

theorem sorted?_eq_none_iff :
    sorted? entries = none ↔ ∃ a ∈ entries, ∃ b ∈ entries, a.1.sort ≠ b.1.sort := by
  cases entries with
  | nil => simp [sorted?]
  | cons first rest =>
    rw [sorted?]
    split
    next hall =>
      -- Everything is of the sort of the first one.
      have hsort : ∀ a ∈ first :: rest, a.1.sort = first.1.sort := by
        intro a ha
        rcases List.mem_cons.mp ha with rfl | hrest
        · rfl
        · exact beq_iff_eq.mp (List.all_eq_true.mp hall a hrest)
      refine iff_of_false (by simp) ?_
      rintro ⟨a, ha, b, hb, hne⟩
      exact hne ((hsort a ha).trans (hsort b hb).symm)
    next hall =>
      refine iff_of_true rfl ?_
      simp only [List.all_eq_true, beq_iff_eq, not_forall] at hall
      obtain ⟨a, ha, hne⟩ := hall
      exact ⟨a, List.mem_cons_of_mem first ha, first, List.mem_cons_self, hne⟩

/-- The values of a list in order. -/
def inOrder (entries : List (Rank × Value)) : List Value :=
  (entries.mergeSort fun a b ↦ !b.1.less a.1).map Prod.snd

theorem mem_inOrder_iff {value : Value} :
    value ∈ inOrder entries ↔ ∃ entry ∈ entries, entry.2 = value := by
  simp only [inOrder, List.mem_map, List.mem_mergeSort]

theorem sorted?_eq_some {values : List Value} (h : sorted? entries = some values) :
    values = inOrder entries := by
  cases entries with
  | nil =>
    cases h
    rw [inOrder, List.mergeSort_nil, List.map_nil]
  | cons first rest =>
    rw [sorted?] at h
    split at h
    · exact (Option.some.inj h).symm
    · contradiction

end

/-! ### Texts of lists -/

namespace Value

/-- What has an order is no collection, so that it nests nothing. -/
theorem nestedText_ne_nested {value : Value} {rank : Rank} (h : value.rank? = some rank) :
    nestedText 2 value ≠ .error .nested := by
  cases value with
  | integer n =>
    have hlevel : ¬ maxLevel < 2 := by decide
    rw [nestedText, if_neg hlevel]
    cases Numeral.text n <;> exact nofun
  | array elements => contradiction
  | table entries => contradiction
  | _ => simp [nestedText, maxLevel]

theorem elementTexts_ne_nested {values : List Value}
    (h : ∀ value ∈ values, ∃ rank, value.rank? = some rank) :
    elementTexts 2 values ≠ .error .nested := by
  induction values with
  | nil => simp [elementTexts]
  | cons value rest ih =>
    obtain ⟨⟨rank, hrank⟩, hrest⟩ := List.forall_mem_cons.mp h
    have hfirst := nestedText_ne_nested hrank
    rw [elementTexts]
    cases hvalue : nestedText 2 value with
    | error cause =>
      intro hnested
      obtain rfl : cause = .nested := Except.error.inj hnested
      exact hfirst hvalue
    | ok text =>
      cases helements : elementTexts 2 rest with
      | error cause =>
        intro hnested
        obtain rfl : cause = .nested := Except.error.inj hnested
        exact ih hrest helements
      | ok texts => exact fun hnested ↦ by contradiction

theorem text_array (values : List Value) :
    text (.array values) = (elementTexts 2 values).map fun texts ↦
      "[" ++ ", ".intercalate texts ++ "]" := by
  rw [text, nestedText, if_neg (by decide)]
  · cases elementTexts 2 values <;> rfl
  all_goals simp

theorem elementTexts_strings (texts : List String) :
    elementTexts 2 (texts.map .string) = .ok (texts.map Text.quoted) := by
  induction texts with
  | nil => rfl
  | cons first rest ih =>
    rw [List.map_cons, elementTexts, ih, nestedText, if_neg (by decide)]
    rfl

end Value

end Toml

end Accumulator
