/-!
The lines of a text, which line feeds separate. Joining texts by line feeds puts their lines one
behind the other (`lines_intercalate`), and a line starts at the start of the text or behind one of
its line feeds (`exists_line_iff`).
-/

set_option autoImplicit false
set_option relaxedAutoImplicit false

namespace Accumulator.Text

/-! ### Prefixes and blocks -/

section

variable {α : Type}

/-- What starts a text before a character that it does not contain, ends before that character. -/
theorem prefix_of_append_cons {c : α} {opening text later : List α} (hc : c ∉ opening)
    (h : opening <+: text ++ c :: later) : opening <+: text := by
  rcases List.prefix_or_prefix_of_prefix h (List.prefix_append text _) with hstart | ⟨more, rfl⟩
  · exact hstart
  · rw [List.prefix_append_right_inj] at h
    cases more with
    | nil => exact ⟨[], (List.append_nil _).trans (List.append_nil text)⟩
    | cons d more =>
      obtain ⟨tail, htail⟩ := h
      have hd : d = c := (List.cons.inj htail).1
      exact absurd (List.mem_append_right text (hd ▸ List.mem_cons_self)) hc

/-- The members of blocks put one behind the other, by their block and their place in it. -/
theorem getElem?_flatten_eq_some_iff (blocks : List (List α)) (k : Nat) (x : α) :
    blocks.flatten[k]? = some x ↔ ∃ (i : Nat) (block : List α) (j : Nat),
      blocks[i]? = some block ∧ block[j]? = some x ∧
        k = (blocks.take i).flatten.length + j := by
  induction blocks generalizing k with
  | nil => simp
  | cons first blocks ih =>
    have htake (i : Nat) : ((first :: blocks).take (i + 1)).flatten.length =
        first.length + (blocks.take i).flatten.length := by
      rw [List.take_succ_cons, List.flatten_cons, List.length_append]
    rw [List.flatten_cons]
    by_cases hk : k < first.length
    · rw [List.getElem?_append_left hk]
      constructor
      · intro hat
        exact ⟨0, first, k, rfl, hat, (Nat.zero_add k).symm⟩
      · rintro ⟨i, block, j, hblock, hat, rfl⟩
        cases i with
        | zero =>
          cases hblock
          rwa [List.take_zero, List.flatten_nil, List.length_nil, Nat.zero_add]
        | succ i =>
          rw [htake] at hk
          omega
    · rw [List.getElem?_append_right (Nat.le_of_not_lt hk), ih]
      constructor
      · rintro ⟨i, block, j, hblock, hat, hplace⟩
        refine ⟨i + 1, block, j, hblock, hat, ?_⟩
        rw [htake]
        omega
      · rintro ⟨i, block, j, hblock, hat, rfl⟩
        cases i with
        | zero =>
          cases hblock
          have hj := (List.getElem?_eq_some_iff.mp hat).1
          rw [List.take_zero, List.flatten_nil, List.length_nil, Nat.zero_add] at hk
          exact absurd hj hk
        | succ i =>
          refine ⟨i, block, j, hblock, hat, ?_⟩
          rw [htake]
          omega

end

/-! ### Lines -/

/-- The lines of a text, without their line feeds. A text that ends with a line feed has an empty
line behind it. -/
def lines (text : String) : List String := (text.toList.splitOn '\n').map String.ofList

theorem lines_of_notMem {text : String} (h : '\n' ∉ text.toList) : lines text = [text] := by
  rw [lines, List.splitOn_eq_singleton h, List.map_singleton, String.ofList_toList]

theorem lines_append_newline (first rest : String) :
    lines (first ++ "\n" ++ rest) = lines first ++ lines rest := by
  have hsplit : (first ++ "\n" ++ rest).toList = first.toList ++ '\n' :: rest.toList := by
    rw [String.toList_append, String.toList_append, List.append_assoc]
    rfl
  rw [lines, hsplit, List.splitOn_append_cons_self, List.map_append]
  rfl

theorem lines_intercalate {texts : List String} (h : texts ≠ []) :
    lines ("\n".intercalate texts) = texts.flatMap lines := by
  induction texts with
  | nil => exact absurd rfl h
  | cons first texts ih =>
    cases texts with
    | nil => rw [String.intercalate_singleton, List.flatMap_singleton]
    | cons second texts =>
      rw [String.intercalate_cons_cons, lines_append_newline, ih (List.cons_ne_nil second texts)]
      exact List.flatMap_cons.symm

/-- Texts of one line each are the lines of their row. -/
theorem flatMap_lines_of_notMem {texts : List String} (h : ∀ text ∈ texts, '\n' ∉ text.toList) :
    texts.flatMap lines = texts := by
  induction texts with
  | nil => rfl
  | cons text texts ih =>
    obtain ⟨hfirst, hothers⟩ := List.forall_mem_cons.mp h
    rw [List.flatMap_cons, lines_of_notMem hfirst, ih hothers, List.singleton_append]

theorem length_lines (text : String) : (lines text).length = text.toList.count '\n' + 1 := by
  unfold lines
  rw [List.length_map]
  induction text.toList with
  | nil => rfl
  | cons c rest ih =>
    rw [List.splitOn_cons_eq_if_modifyHead, List.count_cons]
    split
    · rw [List.length_cons, ih]
    · rw [List.length_modifyHead, ih, Nat.add_zero]

/-- A line feed that is not in the first part of a text is in the rest. -/
theorem exists_start_of_append {front text before rest : List Char} (hfront : '\n' ∉ front)
    (h : front ++ text = before ++ '\n' :: rest) :
    ∃ start, before = front ++ start ∧ text = start ++ '\n' :: rest := by
  rcases List.append_eq_append_iff.mp h with ⟨start, hbefore, htext⟩ | ⟨start, rfl, htext⟩
  · exact ⟨start, hbefore, htext⟩
  · cases start with
    | nil => exact ⟨[], (List.append_nil _).symm.trans (List.append_nil _).symm, htext.symm⟩
    | cons c start =>
      obtain ⟨rfl, -⟩ := List.cons.inj htext
      exact absurd (List.mem_append_right before List.mem_cons_self) hfront

/-- A line feed that is not in the last part of a text is in the part before. -/
theorem exists_more_of_append {text back before rest : List Char} (hback : '\n' ∉ back)
    (h : text ++ back = before ++ '\n' :: rest) :
    ∃ more, text = before ++ '\n' :: more ∧ rest = more ++ back := by
  rcases List.append_eq_append_iff.mp h with ⟨start, -, hback'⟩ | ⟨more, htext, hrest⟩
  · rw [hback'] at hback
    exact absurd (List.mem_append_right start List.mem_cons_self) hback
  · cases more with
    | nil =>
      rw [← List.nil_append back, ← hrest] at hback
      exact absurd List.mem_cons_self hback
    | cons c more =>
      obtain ⟨rfl, hafter⟩ := List.cons.inj hrest
      exact ⟨more, htext, hafter⟩

/-- Line feeds of a text that has them only in its middle. -/
theorem append_append_eq_append_newline_iff {front middle back before rest : List Char}
    (hfront : '\n' ∉ front) (hback : '\n' ∉ back) :
    front ++ middle ++ back = before ++ '\n' :: rest ↔
      ∃ start more, before = front ++ start ∧ middle = start ++ '\n' :: more ∧
        rest = more ++ back := by
  constructor
  · intro h
    rw [List.append_assoc] at h
    obtain ⟨start, hbefore, h⟩ := exists_start_of_append hfront h
    obtain ⟨more, hmiddle, hrest⟩ := exists_more_of_append hback h
    exact ⟨start, more, hbefore, hmiddle, hrest⟩
  · rintro ⟨start, more, rfl, rfl, rfl⟩
    simp only [List.append_assoc, List.cons_append]

/-- Where the first line of a text ends, if not with the text. -/
theorem append_eq_append_newline_iff {first rest before after : List Char} (hfirst : '\n' ∉ first) :
    first ++ '\n' :: rest = before ++ '\n' :: after ↔
      (before = first ∧ after = rest) ∨
        ∃ between, before = first ++ '\n' :: between ∧ rest = between ++ '\n' :: after := by
  constructor
  · intro h
    obtain ⟨start, rfl, hrest⟩ := exists_start_of_append hfirst h
    cases start with
    | nil => exact Or.inl ⟨List.append_nil first, (List.cons.inj hrest).2.symm⟩
    | cons c between =>
      obtain ⟨rfl, hbetween⟩ := List.cons.inj hrest
      exact Or.inr ⟨between, rfl, hbetween⟩
  · rintro (⟨rfl, rfl⟩ | ⟨between, rfl, rfl⟩)
    · rfl
    · rw [List.append_assoc, List.cons_append]

theorem exists_piece_iff {opening : List Char} (hopening : '\n' ∉ opening) (text : List Char)
    (k : Nat) :
    (∃ piece, (text.splitOn '\n')[k]? = some piece ∧ opening <+: piece) ↔
      (k = 0 ∧ opening <+: text) ∨ ∃ before rest, text = before ++ '\n' :: rest ∧
        k = before.count '\n' + 1 ∧ opening <+: rest := by
  induction k generalizing text with
  | zero =>
    by_cases hmem : '\n' ∈ text
    · obtain ⟨first, rest, rfl, hfirst⟩ := List.eq_append_cons_of_mem hmem
      have hstart : opening <+: first ++ '\n' :: rest ↔ opening <+: first :=
        ⟨prefix_of_append_cons hopening, fun h ↦ h.trans (List.prefix_append first _)⟩
      simp [List.splitOn_append_cons_self_of_not_mem hfirst, hstart]
    · simp [List.splitOn_eq_singleton hmem]
  | succ k ih =>
    by_cases hmem : '\n' ∈ text
    · obtain ⟨first, rest, rfl, hfirst⟩ := List.eq_append_cons_of_mem hmem
      have hnone : first.count '\n' = 0 := List.count_eq_zero_of_not_mem hfirst
      rw [List.splitOn_append_cons_self_of_not_mem hfirst, List.getElem?_cons_succ, ih rest]
      simp only [append_eq_append_newline_iff hfirst]
      constructor
      · rintro (⟨rfl, hrest⟩ | ⟨between, after, rfl, rfl, hafter⟩)
        · exact Or.inr ⟨first, rest, Or.inl ⟨rfl, rfl⟩, by rw [hnone], hrest⟩
        · refine Or.inr ⟨_, after, Or.inr ⟨between, rfl, rfl⟩, ?_, hafter⟩
          rw [List.count_append, List.count_cons_self, hnone, Nat.zero_add]
      · rintro (⟨hzero, -⟩ | ⟨before, after, ⟨rfl, rfl⟩ | ⟨between, rfl, rfl⟩, hk, hafter⟩)
        · contradiction
        · rw [hnone] at hk
          exact Or.inl ⟨Nat.succ.inj hk, hafter⟩
        · rw [List.count_append, List.count_cons_self, hnone, Nat.zero_add] at hk
          exact Or.inr ⟨between, after, rfl, Nat.succ.inj hk, hafter⟩
    · rw [List.splitOn_eq_singleton hmem]
      constructor
      · rintro ⟨piece, hpiece, -⟩
        contradiction
      · rintro (⟨hzero, -⟩ | ⟨before, rest, rfl, -, -⟩)
        · contradiction
        · exact absurd (List.mem_append_right before List.mem_cons_self) hmem

/-- A line starts with an opening exactly if the text does so, at its start or behind as many line
feeds as there are lines before. -/
theorem exists_line_iff {opening : List Char} (hopening : '\n' ∉ opening) (text : String)
    (k : Nat) :
    (∃ line, (lines text)[k]? = some line ∧ opening <+: line.toList) ↔
      (k = 0 ∧ opening <+: text.toList) ∨ ∃ before rest, text.toList = before ++ '\n' :: rest ∧
        k = before.count '\n' + 1 ∧ opening <+: rest := by
  rw [← exists_piece_iff hopening]
  unfold lines
  rw [List.getElem?_map]
  constructor
  · rintro ⟨line, hline, hstarts⟩
    obtain ⟨piece, hpiece, rfl⟩ := Option.map_eq_some_iff.mp hline
    rw [String.toList_ofList] at hstarts
    exact ⟨piece, hpiece, hstarts⟩
  · rintro ⟨piece, hpiece, hstarts⟩
    refine ⟨String.ofList piece, by rw [hpiece, Option.map_some], ?_⟩
    rwa [String.toList_ofList]

end Accumulator.Text
