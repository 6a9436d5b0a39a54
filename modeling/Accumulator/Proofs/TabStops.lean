import Accumulator.Proofs.Quotation

/-!
One text at two columns. Behind a tab the columns are at a tab stop, wherever it stood, so two
expansions of a text differ at the first tab or not at all, and if they do then in the number of
spaces (`tabsAgree_of_count_space`). A quoted prompt shows every space that is read for it
(`count_space_prompt?`). Hence it means the same at both columns exactly if its tabs are as wide at
the one as at the other (`prompt_eq_iff_tabsAgree`).
-/

set_option autoImplicit false
set_option relaxedAutoImplicit false

namespace Accumulator

namespace Text

variable {column other : Nat}

/-- The tabs of a text are as wide if it begins at the other column. -/
def TabsAgree (column other : Nat) (text : List Char) : Prop :=
  ∀ first rest, text = first ++ '\t' :: rest →
    columnAfter other first % tabWidth = columnAfter column first % tabWidth

theorem nextColumn_tab_mod (column : Nat) : nextColumn column '\t' % tabWidth = 0 := by
  have hmod := Nat.mod_lt column (show 0 < tabWidth by decide)
  have hdiv := Nat.div_add_mod column tabWidth
  rw [nextColumn, if_pos rfl]
  unfold tabWidth at *
  omega

theorem nextColumn_congr (h : other % tabWidth = column % tabWidth) (c : Char) :
    nextColumn other c % tabWidth = nextColumn column c % tabWidth := by
  by_cases hc : c = '\t'
  · rw [hc, nextColumn_tab_mod, nextColumn_tab_mod]
  · unfold nextColumn
    rw [if_neg hc, if_neg hc]
    split
    · rfl
    · rw [Nat.add_mod, h, ← Nat.add_mod]

theorem columnAfter_congr (h : other % tabWidth = column % tabWidth) (text : List Char) :
    columnAfter other text % tabWidth = columnAfter column text % tabWidth := by
  induction text generalizing column other with
  | nil => exact h
  | cons c text ih => exact ih (nextColumn_congr h c)

theorem expanded_congr (h : other % tabWidth = column % tabWidth) (text : List Char) :
    expanded other text = expanded column text := by
  induction text generalizing column other with
  | nil => rfl
  | cons c text ih =>
    rw [expanded, expanded, expandedChar, expandedChar, h, ih (nextColumn_congr h c)]

theorem tabsAgree_tab_iff (text : List Char) :
    TabsAgree column other ('\t' :: text) ↔ other % tabWidth = column % tabWidth := by
  constructor
  · intro h
    exact h [] text rfl
  · intro h first _ _
    exact columnAfter_congr h first

theorem tabsAgree_cons_iff {c : Char} (hc : c ≠ '\t') (text : List Char) :
    TabsAgree column other (c :: text) ↔
      TabsAgree (nextColumn column c) (nextColumn other c) text := by
  constructor
  · rintro h first rest rfl
    exact h (c :: first) rest rfl
  · intro h first rest hsplit
    cases first with
    | nil => exact absurd (List.cons.inj hsplit).1 hc
    | cons d first =>
      obtain ⟨rfl, hrest⟩ := List.cons.inj hsplit
      exact h first rest hrest

theorem expanded_eq_of_tabsAgree {text : List Char} (h : TabsAgree column other text) :
    expanded other text = expanded column text := by
  induction text generalizing column other with
  | nil => rfl
  | cons c text ih =>
    by_cases hc : c = '\t'
    · subst hc
      exact expanded_congr ((tabsAgree_tab_iff text).mp h) _
    · rw [expanded_cons_of_ne hc, expanded_cons_of_ne hc, ih ((tabsAgree_cons_iff hc text).mp h)]

theorem count_space_expanded_tab (column : Nat) (text : List Char) :
    (expanded column ('\t' :: text)).count ' ' =
      (tabWidth - column % tabWidth) + (expanded (nextColumn column '\t') text).count ' ' := by
  rw [expanded, List.count_append, expandedChar, if_pos rfl, List.count_replicate_self]

theorem tabsAgree_of_count_space {text : List Char}
    (h : (expanded other text).count ' ' = (expanded column text).count ' ') :
    TabsAgree column other text := by
  induction text generalizing column other with
  | nil => exact fun first rest hsplit ↦ absurd hsplit.symm (by simp)
  | cons c text ih =>
    by_cases hc : c = '\t'
    · subst hc
      have hstop : nextColumn other '\t' % tabWidth = nextColumn column '\t' % tabWidth :=
        (nextColumn_tab_mod other).trans (nextColumn_tab_mod column).symm
      rw [count_space_expanded_tab, count_space_expanded_tab, expanded_congr hstop] at h
      have hother := Nat.mod_lt other (show 0 < tabWidth by decide)
      have hcolumn := Nat.mod_lt column (show 0 < tabWidth by decide)
      exact (tabsAgree_tab_iff text).mpr (by omega)
    · rw [expanded_cons_of_ne hc, expanded_cons_of_ne hc, List.count_cons, List.count_cons] at h
      exact (tabsAgree_cons_iff hc text).mpr (ih (Nat.add_right_cancel h))

end Text

namespace Assembly

open Text (expanded TabsAgree)

/-! ### Spaces of prompts -/

theorem space_ne_of_hexDigit? {c : Char} {n : Nat} (h : Text.hexDigit? c = some n) : c ≠ ' ' := by
  rintro rfl
  contradiction

theorem ofNat_ne_space {n : Nat} (h : n ≠ 32) : Char.ofNat n ≠ ' ' := by
  intro heq
  unfold Char.ofNat at heq
  by_cases hvalid : n.isValidChar
  · rw [dif_pos hvalid] at heq
    exact h (congrArg Char.toNat heq)
  · rw [dif_neg hvalid] at heq
    contradiction

/-- A code stands for no space, and is written without any. -/
theorem count_space_coded? {second c : Char} (hsecond : second = '2' ∨ second = '4')
    {text after : List Char} (h : coded? second text = some (c, after)) :
    [c].count ' ' + after.count ' ' = text.count ' ' := by
  obtain ⟨first, n, rfl, hfirst⟩ := coded?_eq_some h
  have hc : c ≠ ' ' := by
    unfold coded? at h
    dsimp only at h
    rw [if_pos (beq_self_eq_true second), hfirst, Option.map_some] at h
    cases h
    refine ofNat_ne_space ?_
    rcases hsecond with rfl | rfl
    · change 16 * n + 2 ≠ 32
      omega
    · change 16 * n + 4 ≠ 32
      omega
  have hsecond' : second ≠ ' ' := by
    rcases hsecond with rfl | rfl <;> decide
  rw [List.count_cons_of_ne (space_ne_of_hexDigit? hfirst), List.count_cons_of_ne hsecond',
    List.count_cons_of_ne hc]
  exact Nat.zero_add _

theorem count_space_escape? {text content after : List Char}
    (h : escape? text = some (content, after)) :
    content.count ' ' + after.count ' ' = text.count ' ' := by
  unfold escape? at h
  split at h
  case h_1 | h_2 => contradiction
  case h_3 | h_4 | h_5 | h_6 | h_10 =>
    cases h
    rw [List.count_cons_of_ne (by decide), List.count_cons_of_ne (by decide)]
    exact Nat.zero_add _
  case h_7 | h_8 =>
    rw [List.count_cons_of_ne (by decide)]
    split at h
    · rename_i hfound
      cases h
      exact count_space_coded? (by decide) hfound
    · cases h
      rw [List.count_cons_of_ne (by decide)]
      exact Nat.zero_add _
  case h_9 =>
    split at h <;> cases h <;> exact List.count_append.symm
  case h_11 =>
    cases h
    exact List.count_append.symm

theorem count_space_promptContent? {done text content rest : List Char}
    (h : promptContent? done text = some (content, rest)) :
    content.count ' ' + rest.count ' ' = done.count ' ' + text.count ' ' := by
  fun_induction promptContent? done text with
  | case1 => contradiction
  | case2 done rest' =>
    cases h
    rw [List.count_reverse, List.count_cons_of_ne (by decide)]
  | case3 => contradiction
  | case4 done rest' found after hescape ih =>
    have hfound := count_space_escape? hescape
    rw [ih h, List.count_append, List.count_reverse, List.count_cons_of_ne (by decide)]
    omega
  | case5 => contradiction
  | case6 done c rest' _ _ _ ih =>
    rw [ih h, List.count_cons, List.count_cons]
    omega

theorem count_space_prompt? {text content rest : List Char}
    (h : prompt? text = some (content, rest)) :
    content.count ' ' + rest.count ' ' = text.count ' ' := by
  unfold prompt? at h
  split at h
  · rw [count_space_promptContent? h, List.count_cons_of_ne (by decide)]
    exact Nat.zero_add _
  · contradiction

/-- A prompt means the same at two columns exactly if its tabs are as wide. -/
theorem prompt_eq_iff_tabsAgree {column other : Nat} {lexeme content moved : List Char}
    (hcontent : prompt? (expanded column lexeme) = some (content, []))
    (hmoved : prompt? (expanded other lexeme) = some (moved, [])) :
    moved = content ↔ TabsAgree column other lexeme := by
  constructor
  · rintro rfl
    exact Text.tabsAgree_of_count_space
      ((count_space_prompt? hmoved).symm.trans (count_space_prompt? hcontent))
  · intro h
    rw [Text.expanded_eq_of_tabsAgree h, hcontent] at hmoved
    cases hmoved
    rfl

end Assembly

end Accumulator
