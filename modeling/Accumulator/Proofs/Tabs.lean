import Accumulator.Text.TabStop

/-!
Tab expansion one character at a time. A text is expanded from the column at which it begins, and
what stands behind it from the column behind it (`expanded_append`), so that a text and its
expansion are read in step: what stops at a space stops at a tab as well (`takeWhile_expanded`,
`dropWhile_expanded`), and a place of the expansion that is not between two spaces is a place of the
text (`exists_of_expanded_eq_append`).
-/

set_option autoImplicit false
set_option relaxedAutoImplicit false

namespace Accumulator.Text

/-- The column behind a character. -/
def nextColumn (column : Nat) (c : Char) : Nat :=
  if c = '\t' then column + (tabWidth - column % tabWidth)
  else if c = '\n' ∨ c = '\r' then 0
  else column + 1

/-- The column behind a text that begins at a column. -/
def columnAfter (column : Nat) (text : List Char) : Nat := text.foldl nextColumn column

/-- What is read for a character. -/
def expandedChar (column : Nat) (c : Char) : List Char :=
  if c = '\t' then List.replicate (tabWidth - column % tabWidth) ' ' else [c]

/-- What is read for a text that begins at a column. -/
def expanded : Nat → List Char → List Char
  | _, [] => []
  | column, c :: rest => expandedChar column c ++ expanded (nextColumn column c) rest

/-- A tab counts as a space. -/
def untabbed (c : Char) : Char := if c = '\t' then ' ' else c

variable {column : Nat} {c : Char} {text : List Char}

@[simp] theorem expanded_nil (column : Nat) : expanded column [] = [] := rfl

@[simp] theorem columnAfter_nil (column : Nat) : columnAfter column [] = column := rfl

@[simp] theorem columnAfter_cons (column : Nat) (c : Char) (text : List Char) :
    columnAfter column (c :: text) = columnAfter (nextColumn column c) text := rfl

theorem columnAfter_append (column : Nat) (first rest : List Char) :
    columnAfter column (first ++ rest) = columnAfter (columnAfter column first) rest :=
  List.foldl_append

/-- Behind the end of a line columns are counted anew. -/
theorem columnAfter_newline (column : Nat) (first rest : List Char) :
    columnAfter column (first ++ '\n' :: rest) = columnAfter 0 rest := by
  rw [columnAfter_append, columnAfter_cons]
  rfl

theorem expanded_cons_of_ne (hc : c ≠ '\t') (column : Nat) (text : List Char) :
    expanded column (c :: text) = c :: expanded (nextColumn column c) text := by
  rw [expanded, expandedChar, if_neg hc, List.singleton_append]

theorem expanded_append (column : Nat) (first rest : List Char) :
    expanded column (first ++ rest) =
      expanded column first ++ expanded (columnAfter column first) rest := by
  induction first generalizing column with
  | nil => rfl
  | cons c first ih => rw [List.cons_append, expanded, ih, expanded, List.append_assoc]; rfl

theorem expandTabsFrom_eq (column : Nat) (done text : List Char) :
    expandTabsFrom column done text = done.reverse ++ expanded column text := by
  induction text generalizing column done with
  | nil => rw [expandTabsFrom, expanded_nil, List.append_nil]
  | cons c text ih =>
    by_cases htab : c = '\t'
    · subst htab
      rw [expandTabsFrom, if_pos (beq_self_eq_true '\t')]
      dsimp only
      rw [ih, List.reverse_append, List.reverse_replicate, List.append_assoc]
      rfl
    · have hbeq : ¬ (c == '\t') = true := by simpa using htab
      rw [expandTabsFrom, if_neg hbeq, ih, ih, ← apply_ite (fun next ↦
        (c :: done).reverse ++ expanded next text), expanded_cons_of_ne htab, List.reverse_cons,
        List.append_assoc]
      simp [nextColumn, htab]

theorem expandTabs_eq (text : List Char) : expandTabs text = expanded 0 text :=
  expandTabsFrom_eq 0 [] text

theorem expanded_of_no_tab (h : '\t' ∉ text) (column : Nat) : expanded column text = text := by
  induction text generalizing column with
  | nil => rfl
  | cons c text ih =>
    obtain ⟨hc, htext⟩ := List.ne_and_not_mem_of_not_mem_cons h
    rw [expanded_cons_of_ne hc.symm, ih htext]

/-- A tab is read as one space or more, any other character as itself. -/
theorem exists_expandedChar (column : Nat) (c : Char) :
    ∃ more, expandedChar column c = List.replicate (more + 1) (untabbed c) := by
  unfold expandedChar untabbed
  split
  · have := Nat.mod_lt column (show 0 < tabWidth by decide)
    exact ⟨tabWidth - column % tabWidth - 1, congrArg (List.replicate · ' ') (by omega)⟩
  · exact ⟨0, rfl⟩

theorem head?_expanded (column : Nat) (text : List Char) :
    (expanded column text).head? = text.head?.map untabbed := by
  cases text with
  | nil => rfl
  | cons c text =>
    obtain ⟨more, hmore⟩ := exists_expandedChar column c
    rw [expanded, hmore]
    rfl

theorem expanded_eq_nil_iff (column : Nat) (text : List Char) :
    expanded column text = [] ↔ text = [] := by
  rw [← List.head?_eq_none_iff, head?_expanded, Option.map_eq_none_iff, List.head?_eq_none_iff]

theorem count_newline_expanded (column : Nat) (text : List Char) :
    (expanded column text).count '\n' = text.count '\n' := by
  induction text generalizing column with
  | nil => rfl
  | cons c text ih =>
    by_cases hc : c = '\t'
    · subst hc
      rw [expanded, List.count_append, ih, expandedChar, if_pos rfl, List.count_replicate]
      simp
    · rw [expanded_cons_of_ne hc, List.count_cons, List.count_cons, ih]

/-- A test that takes tabs for spaces cannot tell a text from its expansion by the head. -/
theorem any_head?_expanded {p : Char → Bool} (hp : p ' ' = p '\t') (column : Nat)
    (text : List Char) : (expanded column text).head?.any p = text.head?.any p := by
  rw [head?_expanded]
  cases text with
  | nil => rfl
  | cons c text =>
    show p (untabbed c) = p c
    unfold untabbed
    split
    · rename_i hc
      rw [hc, hp]
    · rfl

section

variable (p : Char → Bool)

theorem takeWhile_expanded (column : Nat) (text : List Char) :
    (expanded column text).takeWhile p =
      expanded column (text.takeWhile fun c ↦ p (untabbed c)) := by
  induction text generalizing column with
  | nil => rfl
  | cons c text ih =>
    obtain ⟨more, hmore⟩ := exists_expandedChar column c
    rw [expanded, hmore, List.takeWhile_cons]
    by_cases hc : p (untabbed c) = true
    · have hall : ∀ d ∈ List.replicate (more + 1) (untabbed c), p d = true := by
        intro d hd
        rw [List.eq_of_mem_replicate hd, hc]
      rw [List.takeWhile_append_of_pos hall, ih, if_pos hc, ← hmore]
      rfl
    · rw [List.replicate_succ, List.cons_append, List.takeWhile_cons, if_neg hc, if_neg hc]
      rfl

theorem dropWhile_expanded (column : Nat) (text : List Char) :
    (expanded column text).dropWhile p =
      expanded (columnAfter column (text.takeWhile fun c ↦ p (untabbed c)))
        (text.dropWhile fun c ↦ p (untabbed c)) := by
  have happend := expanded_append column (text.takeWhile fun c ↦ p (untabbed c))
    (text.dropWhile fun c ↦ p (untabbed c))
  rw [List.takeWhile_append_dropWhile, ← takeWhile_expanded] at happend
  exact List.append_cancel_left (List.takeWhile_append_dropWhile.trans happend)

end

/-- The spaces of one tab stay together: behind anything but a space, a place of the expansion is a
place of the text. -/
theorem exists_of_expanded_eq_append {first rest : List Char}
    (h : expanded column text = first ++ rest) (hplace : first.getLast? ≠ some ' ') :
    ∃ before after, text = before ++ after ∧ first = expanded column before ∧
      rest = expanded (columnAfter column before) after := by
  induction text generalizing column first with
  | nil =>
    obtain ⟨rfl, rfl⟩ := List.append_eq_nil_iff.mp h.symm
    exact ⟨[], [], rfl, rfl, rfl⟩
  | cons c text ih =>
    cases first with
    | nil => exact ⟨[], c :: text, rfl, rfl, h.symm⟩
    | cons d first =>
      rw [expanded, List.append_eq_append_iff] at h
      rcases h with ⟨later, hfirst, hlater⟩ | ⟨later, hchar, hrest⟩
      · rw [hfirst, List.getLast?_append] at hplace
        have hlast : later.getLast? ≠ some ' ' := by
          intro hspace
          rw [hspace] at hplace
          exact hplace rfl
        obtain ⟨before, after, rfl, rfl, rfl⟩ := ih hlater hlast
        exact ⟨c :: before, after, rfl, hfirst, rfl⟩
      · by_cases hc : c = '\t'
        · -- The first part ends within the spaces of a tab, hence behind a space.
          rw [expandedChar, if_pos hc] at hchar
          have hspace : (d :: first).getLast (List.cons_ne_nil d first) = ' ' := by
            refine List.eq_of_mem_replicate (n := tabWidth - column % tabWidth) ?_
            rw [hchar]
            exact List.mem_append_left _ (List.getLast_mem _)
          rw [List.getLast?_eq_some_getLast (List.cons_ne_nil d first), hspace] at hplace
          exact absurd rfl hplace
        · rw [expandedChar, if_neg hc, List.cons_append, List.cons.injEq] at hchar
          obtain ⟨rfl, hnil⟩ := hchar
          obtain ⟨rfl, rfl⟩ := List.append_eq_nil_iff.mp hnil.symm
          refine ⟨[c], text, rfl, ?_, hrest⟩
          rw [expanded_cons_of_ne hc, expanded_nil]

/-- What holds neither spaces nor tabs stands in the expansion as it does in the text. -/
theorem expanded_eq_append_iff {first : List Char} (hfirst : ∀ c ∈ first, c ≠ ' ' ∧ c ≠ '\t')
    (column : Nat) (text rest : List Char) :
    expanded column text = first ++ rest ↔
      ∃ after, text = first ++ after ∧ rest = expanded (columnAfter column first) after := by
  constructor
  · intro h
    induction first generalizing column text with
    | nil => exact ⟨text, rfl, h.symm⟩
    | cons d first ih =>
      obtain ⟨⟨hspace, htab⟩, hothers⟩ := List.forall_mem_cons.mp hfirst
      have hhead := head?_expanded column text
      rw [h] at hhead
      cases text with
      | nil => contradiction
      | cons c text =>
        have hd : d = untabbed c := Option.some.inj hhead
        have hc : c ≠ '\t' := by
          rintro rfl
          exact hspace hd
        rw [untabbed, if_neg hc] at hd
        subst hd
        rw [expanded_cons_of_ne hc, List.cons_append, List.cons.injEq] at h
        obtain ⟨after, rfl, hrest⟩ := ih hothers _ _ h.2
        exact ⟨after, rfl, hrest⟩
  · rintro ⟨after, rfl, rfl⟩
    have hno : '\t' ∉ first := fun hmem ↦ (hfirst _ hmem).2 rfl
    rw [expanded_append, expanded_of_no_tab hno]

/-- What ends in anything but a space does so because the text does. -/
theorem exists_of_expanded_eq_concat {first : List Char} {d : Char} (hd : d ≠ ' ')
    (h : expanded column text = first ++ [d]) :
    ∃ init, text = init ++ [d] ∧ first = expanded column init := by
  rcases List.eq_nil_or_concat text with rfl | ⟨init, c, hconcat⟩
  · exact absurd h.symm (List.append_ne_nil_of_right_ne_nil first (List.cons_ne_nil d []))
  · rw [List.concat_eq_append] at hconcat
    subst hconcat
    obtain ⟨more, hmore⟩ := exists_expandedChar (columnAfter column init) c
    have hlast : expanded column (init ++ [c]) =
        expanded column init ++ List.replicate more (untabbed c) ++ [untabbed c] := by
      rw [expanded_append, expanded, hmore, List.replicate_succ', expanded_nil, List.append_nil,
        List.append_assoc]
    obtain ⟨-, hchar⟩ := List.append_inj' (hlast.symm.trans h) rfl
    have hc : c ≠ '\t' := by
      rintro rfl
      exact hd (List.cons.inj hchar).1.symm
    rw [untabbed, if_neg hc] at hchar
    rw [expanded_append, expanded_cons_of_ne hc, expanded_nil, hchar] at h
    exact ⟨init, by rw [hchar], (List.append_cancel_right h).symm⟩

end Accumulator.Text
