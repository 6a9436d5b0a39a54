import Accumulator.Proofs.Recognition

/-!
Quoted prompts against the grammar. Whatever stands between two quotes is read without regard to
what follows (`promptContent?_of_isQuotable`), and only what the grammar calls quoted is read at all
(`exists_isQuotable_of_promptContent?`). Since a tab counts as the spaces up to a tab stop, the
escapes are those of the expansion, but the quotes are those of the text (`prompt?_expanded_iff`).
-/

set_option autoImplicit false
set_option relaxedAutoImplicit false

namespace Accumulator.Assembly

open Text (expanded columnAfter)

/-! ### What may stand between quotes -/

theorem isQuotable_cons_iff {c : Char} (hc : c ≠ '\\') (rest : List Char) :
    IsQuotable (c :: rest) ↔ (c ≠ '"' ∧ c ≠ '\n' ∧ c ≠ '\r') ∧ IsQuotable rest := by
  constructor
  · intro h
    cases h with
    | plain hplain hrest => exact ⟨⟨hplain.1, hplain.2.2⟩, hrest⟩
    | escaped => contradiction
  · rintro ⟨⟨hquote, hline⟩, hrest⟩
    exact .plain ⟨hquote, hc, hline⟩ hrest

theorem isQuotable_escape_iff (c : Char) (rest : List Char) :
    IsQuotable ('\\' :: c :: rest) ↔ c ≠ '\n' ∧ IsQuotable rest := by
  constructor
  · intro h
    cases h with
    | plain hc _ => exact absurd rfl hc.2.1
    | escaped hc hrest => exact ⟨hc, hrest⟩
  · rintro ⟨hc, hrest⟩
    exact .escaped hc hrest

theorem isQuotable_spaces_append (n : Nat) (rest : List Char) :
    IsQuotable (List.replicate n ' ' ++ rest) ↔ IsQuotable rest := by
  induction n with
  | zero => rfl
  | succ n ih =>
    rw [List.replicate_succ, List.cons_append, isQuotable_cons_iff (by decide), ih]
    exact and_iff_right (by decide)

/-- Tabs between quotes do no harm: one behind a backslash is a hidden space. -/
theorem isQuotable_expanded_iff (column : Nat) (body : List Char) :
    IsQuotable (expanded column body) ↔ IsQuotable body := by
  match body with
  | [] => rfl
  | c :: body =>
    by_cases htab : c = '\t'
    · have ih := isQuotable_expanded_iff (Text.nextColumn column c) body
      obtain ⟨more, hmore⟩ := Text.exists_expandedChar column c
      rw [htab] at hmore ih ⊢
      rw [expanded, hmore, isQuotable_cons_iff (by decide), and_iff_right (by decide), ← ih]
      exact isQuotable_spaces_append _ _
    rw [Text.expanded_cons_of_ne htab]
    by_cases hescape : c = '\\'
    · rw [hescape]
      match body with
      | [] => rfl
      | d :: body =>
        have ih := isQuotable_expanded_iff (Text.nextColumn (Text.nextColumn column '\\') d) body
        obtain ⟨more, hmore⟩ := Text.exists_expandedChar (Text.nextColumn column '\\') d
        rw [expanded, isQuotable_escape_iff]
        by_cases hhidden : d = '\t'
        · rw [hhidden] at hmore ih ⊢
          rw [hmore, List.replicate_succ, List.cons_append, isQuotable_escape_iff, ← ih]
          exact and_congr (by decide) (isQuotable_spaces_append _ _)
        · rw [Text.expandedChar, if_neg hhidden, List.singleton_append, isQuotable_escape_iff, ih]
    · have ih := isQuotable_expanded_iff (Text.nextColumn column c) body
      rw [isQuotable_cons_iff hescape, isQuotable_cons_iff hescape, ih]
termination_by body.length

/-! ### Escapes -/

theorem hexDigit?_eq_some_plain {c : Char} {n : Nat} (h : Text.hexDigit? c = some n) :
    c ≠ '"' ∧ c ≠ '\\' ∧ c ≠ '\n' ∧ c ≠ '\r' := by
  refine ⟨?_, ?_, ?_, ?_⟩ <;> rintro rfl <;> contradiction

theorem coded?_eq_some {second c : Char} {text after : List Char}
    (h : coded? second text = some (c, after)) :
    ∃ first n, text = first :: second :: after ∧ Text.hexDigit? first = some n := by
  unfold coded? at h
  split at h
  · split at h
    · rename_i hsecond
      obtain ⟨n, hfirst, heq⟩ := Option.map_eq_some_iff.mp h
      cases heq
      exact ⟨_, n, by rw [beq_iff_eq.mp hsecond], hfirst⟩
    · contradiction
  · contradiction

/-- An escape hides one character, and takes no more than plain characters behind it. -/
theorem escape?_eq_some {text content after : List Char}
    (h : escape? text = some (content, after)) :
    ∃ c taken, text = c :: (taken ++ after) ∧ c ≠ '\n' ∧
      ∀ body, IsQuotable body → IsQuotable (taken ++ body) := by
  have hcoded {second : Char} (hsecond : second ≠ '"' ∧ second ≠ '\\' ∧ second ≠ '\n' ∧
      second ≠ '\r') {first : Char} {n : Nat} (hfirst : Text.hexDigit? first = some n) :
      ∀ body, IsQuotable body → IsQuotable ([first, second] ++ body) := fun body hbody ↦
    .plain (hexDigit?_eq_some_plain hfirst) (.plain hsecond hbody)
  unfold escape? at h
  split at h
  case h_1 | h_2 => contradiction
  case h_3 | h_4 | h_5 | h_6 | h_10 =>
    cases h
    exact ⟨_, [], rfl, by decide, fun _ hbody ↦ hbody⟩
  case h_7 | h_8 =>
    split at h
    · rename_i hfound
      obtain ⟨first, n, rfl, hfirst⟩ := coded?_eq_some hfound
      cases h
      exact ⟨_, [first, _], rfl, by decide, hcoded (by decide) hfirst⟩
    · cases h
      exact ⟨_, [], rfl, by decide, fun _ hbody ↦ hbody⟩
  case h_9 c rest hnewline _ _ _ _ _ _ =>
    have hc : c ≠ '\n' := fun heq ↦ hnewline heq
    split at h
    · cases h
      exact ⟨c, ['3'], rfl, hc, fun _ ↦ .plain (by decide)⟩
    · cases h
      exact ⟨c, [], rfl, hc, fun _ hbody ↦ hbody⟩
  case h_11 c rest hnewline _ _ _ _ _ _ _ _ =>
    cases h
    exact ⟨c, [], rfl, fun heq ↦ hnewline heq, fun _ hbody ↦ hbody⟩

/-- A code is read before the closing quote, or not at all. -/
theorem coded?_of_isQuotable {second : Char} (hsecond : second = '2' ∨ second = '4')
    {body : List Char} (h : IsQuotable body) :
    (∃ c more, IsQuotable more ∧ more.length ≤ body.length ∧
      ∀ rest, coded? second (body ++ '"' :: rest) = some (c, more ++ '"' :: rest)) ∨
    ∀ rest, coded? second (body ++ '"' :: rest) = none := by
  match body with
  | [] =>
    right
    intro rest
    cases rest with
    | nil => rfl
    | cons c rest => exact ite_self none
  | [c] =>
    right
    intro rest
    rcases hsecond with rfl | rfl <;> rfl
  | first :: c :: more =>
    have hcode (rest : List Char) : coded? second (first :: c :: more ++ '"' :: rest) =
        if c == second then (Text.hexDigit? first).map fun high ↦
          (Char.ofNat (16 * high + (second.toNat - '0'.toNat)), more ++ '"' :: rest)
        else none := rfl
    simp only [hcode]
    by_cases hc : c = second
    · cases hfirst : Text.hexDigit? first with
      | none => exact .inr fun _ ↦ ite_self none
      | some n =>
        have hplain := hexDigit?_eq_some_plain hfirst
        have hlast : c ≠ '\\' := by rcases hsecond with rfl | rfl <;> simp [hc]
        have hmore := (isQuotable_cons_iff hlast _).mp ((isQuotable_cons_iff hplain.2.1 _).mp h).2
        exact .inl ⟨_, more, hmore.2, by simp; omega, fun _ ↦ if_pos (beq_iff_eq.mpr hc)⟩
    · exact .inr fun _ ↦ if_neg (by simpa using hc)

/-- An escape ends before the closing quote, whatever follows. -/
theorem escape?_of_isQuotable {c : Char} {body : List Char} (hc : c ≠ '\n')
    (h : IsQuotable body) :
    ∃ content more, IsQuotable more ∧ more.length ≤ body.length ∧
      ∀ rest, escape? (c :: (body ++ '"' :: rest)) = some (content, more ++ '"' :: rest) := by
  by_cases ht : c = 't'
  · exact ⟨['\t'], body, h, Nat.le_refl _, fun _ ↦ by rw [ht]; rfl⟩
  by_cases hn : c = 'n'
  · exact ⟨['\n'], body, h, Nat.le_refl _, fun _ ↦ by rw [hn]; rfl⟩
  by_cases hf : c = 'f'
  · exact ⟨['\x0c'], body, h, Nat.le_refl _, fun _ ↦ by rw [hf]; rfl⟩
  by_cases hr : c = 'r'
  · exact ⟨['\r'], body, h, Nat.le_refl _, fun _ ↦ by rw [hr]; rfl⟩
  by_cases hx : c = 'x'
  · subst hx
    rcases coded?_of_isQuotable (.inl rfl) h with ⟨d, more, hmore, hlength, hcoded⟩ | hcoded
    · exact ⟨[d], more, hmore, hlength, fun rest ↦ by simp [escape?, hcoded rest]⟩
    · exact ⟨['x'], body, h, Nat.le_refl _, fun rest ↦ by simp [escape?, hcoded rest]⟩
  by_cases hu : c = 'u'
  · subst hu
    rcases coded?_of_isQuotable (.inr rfl) h with ⟨d, more, hmore, hlength, hcoded⟩ | hcoded
    · exact ⟨[d], more, hmore, hlength, fun rest ↦ by simp [escape?, hcoded rest]⟩
    · exact ⟨['u'], body, h, Nat.le_refl _, fun rest ↦ by simp [escape?, hcoded rest]⟩
  by_cases hthree : body.head? = some '3'
  · obtain ⟨more, rfl⟩ := List.head?_eq_some_iff.mp hthree
    have hmore := ((isQuotable_cons_iff (by decide) more).mp h).2
    by_cases hoctal : '0' ≤ c ∧ c ≤ '7'
    · refine ⟨[c, '3'], more, hmore, Nat.le_succ _, fun rest ↦ ?_⟩
      simp [escape?, hoctal]
    · refine ⟨[c], '3' :: more, h, Nat.le_refl _, fun rest ↦ ?_⟩
      simp [escape?, hoctal]
  · have hno (rest after : List Char) : body ++ '"' :: rest ≠ '3' :: after := by
      intro heq
      cases body with
      | nil => exact absurd (List.cons.inj heq).1 (by decide)
      | cons d body => exact hthree (congrArg some (List.cons.inj heq).1)
    by_cases hzero : c = '0'
    · refine ⟨['\x00'], body, h, Nat.le_refl _, fun rest ↦ ?_⟩
      simp [escape?, hzero, hno rest]
    · refine ⟨[c], body, h, Nat.le_refl _, fun rest ↦ ?_⟩
      simp [escape?, hno rest]

/-! ### Prompts -/

theorem promptContent?_of_isQuotable {body : List Char} (h : IsQuotable body) (done : List Char) :
    ∃ content, ∀ rest, promptContent? done (body ++ '"' :: rest) = some (content, rest) := by
  match body, h with
  | _, .nil => exact ⟨done.reverse, fun rest ↦ by rw [List.nil_append, promptContent?]⟩
  | _, @IsQuotable.plain c body hc hbody =>
    obtain ⟨content, hcontent⟩ := promptContent?_of_isQuotable hbody (c :: done)
    refine ⟨content, fun rest ↦ ?_⟩
    rw [List.cons_append, promptContent?, if_neg (by simp [hc.2.2]), hcontent]
    · exact hc.1
    · exact hc.2.1
  | _, @IsQuotable.escaped c body hc hbody =>
    obtain ⟨found, more, hmore, hlength, hfound⟩ := escape?_of_isQuotable hc hbody
    obtain ⟨content, hcontent⟩ := promptContent?_of_isQuotable hmore (found.reverse ++ done)
    refine ⟨content, fun rest ↦ ?_⟩
    rw [List.cons_append, List.cons_append, promptContent?]
    split
    · rename_i hnone
      rw [hfound rest] at hnone
      contradiction
    · rename_i hsome
      rw [hfound rest] at hsome
      cases hsome
      exact hcontent rest
termination_by body.length

theorem exists_isQuotable_of_promptContent? {done text content rest : List Char}
    (h : promptContent? done text = some (content, rest)) :
    ∃ body, IsQuotable body ∧ text = body ++ '"' :: rest := by
  fun_induction promptContent? done text with
  | case1 => contradiction
  | case2 =>
    cases h
    exact ⟨[], .nil, rfl⟩
  | case3 => contradiction
  | case4 done text found after hescape ih =>
    obtain ⟨body, hbody, rfl⟩ := ih h
    obtain ⟨c, taken, rfl, hc, htaken⟩ := escape?_eq_some hescape
    exact ⟨'\\' :: c :: (taken ++ body), .escaped hc (htaken body hbody), by simp⟩
  | case5 => contradiction
  | case6 done c text hquote hbackslash hline ih =>
    obtain ⟨body, hbody, rfl⟩ := ih h
    simp only [Bool.or_eq_true, beq_iff_eq, not_or] at hline
    exact ⟨c :: body, .plain ⟨hquote, hbackslash, hline⟩ hbody, rfl⟩

/-- A quoted text means by itself what it means before any other text. -/
theorem prompt?_eq_some_iff (text content rest : List Char) :
    prompt? text = some (content, rest) ↔
      ∃ lexeme, text = lexeme ++ rest ∧ IsQuoted lexeme ∧ prompt? lexeme = some (content, []) := by
  constructor
  · intro h
    unfold prompt? at h
    split at h
    · obtain ⟨body, hbody, rfl⟩ := exists_isQuotable_of_promptContent? h
      obtain ⟨found, hfound⟩ := promptContent?_of_isQuotable hbody []
      obtain rfl : found = content := by
        rw [hfound rest] at h
        cases h
        rfl
      refine ⟨'"' :: (body ++ ['"']), ?_, ⟨body, rfl, hbody⟩, hfound []⟩
      simp
    · contradiction
  · rintro ⟨lexeme, rfl, ⟨body, rfl, hbody⟩, hcontent⟩
    obtain ⟨found, hfound⟩ := promptContent?_of_isQuotable hbody []
    have halone : found = content := by
      have := (hfound []).symm.trans hcontent
      cases this
      rfl
    rw [← halone, List.cons_append, List.append_assoc]
    exact hfound rest

theorem IsQuoted.exists_prompt? {lexeme : List Char} (h : IsQuoted lexeme) :
    ∃ content, prompt? lexeme = some (content, []) := by
  obtain ⟨body, rfl, hbody⟩ := h
  obtain ⟨content, hcontent⟩ := promptContent?_of_isQuotable hbody []
  exact ⟨content, hcontent []⟩

theorem isQuoted_expanded_iff (column : Nat) (lexeme : List Char) :
    IsQuoted (expanded column lexeme) ↔ IsQuoted lexeme := by
  have hquote : ∀ c ∈ ['"'], c ≠ ' ' ∧ c ≠ '\t' := by simp
  constructor
  · rintro ⟨read, hread, hquotable⟩
    obtain ⟨inside, rfl, hinside⟩ := (Text.expanded_eq_append_iff hquote _ _ _).mp hread
    obtain ⟨body, rfl, rfl⟩ := Text.exists_of_expanded_eq_concat (by decide) hinside.symm
    exact ⟨body, rfl, (isQuotable_expanded_iff _ body).mp hquotable⟩
  · rintro ⟨body, rfl, hbody⟩
    have hread : expanded column ('"' :: (body ++ ['"'])) =
        '"' :: (expanded (Text.nextColumn column '"') body ++ ['"']) := by
      rw [Text.expanded_cons_of_ne (by decide), Text.expanded_append]
      rfl
    exact ⟨_, hread, (isQuotable_expanded_iff _ body).mpr hbody⟩

theorem IsQuoted.getLast? {lexeme : List Char} (h : IsQuoted lexeme) :
    lexeme.getLast? = some '"' := by
  obtain ⟨body, rfl, -⟩ := h
  exact List.getLast?_concat (l := '"' :: body)

theorem prompt?_expanded_iff (column : Nat) (text content after : List Char) :
    prompt? (expanded column text) = some (content, after) ↔
      ∃ lexeme rest, text = lexeme ++ rest ∧ IsQuoted lexeme ∧
        prompt? (expanded column lexeme) = some (content, []) ∧
        after = expanded (columnAfter column lexeme) rest := by
  rw [prompt?_eq_some_iff]
  constructor
  · rintro ⟨read, hsplit, hquoted, hcontent⟩
    obtain ⟨lexeme, rest, rfl, rfl, rfl⟩ := Text.exists_of_expanded_eq_append hsplit (by
      rw [hquoted.getLast?]
      decide)
    exact ⟨lexeme, rest, rfl, (isQuoted_expanded_iff _ _).mp hquoted, hcontent, rfl⟩
  · rintro ⟨lexeme, rest, rfl, hquoted, hcontent, rfl⟩
    exact ⟨expanded column lexeme, Text.expanded_append _ _ _,
      (isQuoted_expanded_iff _ _).mpr hquoted, hcontent⟩

/-! ### Commands of the console -/

theorem prompt?_skipSpaces_expanded_iff (column : Nat) (text content after : List Char) :
    prompt? (skipSpaces (expanded column text)) = some (content, after) ↔
      ∃ gap lexeme rest, text = gap ++ (lexeme ++ rest) ∧ (∀ c ∈ gap, isInlineSpace c = true) ∧
        IsQuoted lexeme ∧
        prompt? (expanded (columnAfter column gap) lexeme) = some (content, []) ∧
        after = expanded (columnAfter column (gap ++ lexeme)) rest := by
  constructor
  · intro h
    obtain ⟨gap, text, rfl, hgap, -, hread⟩ :=
      (skipSpaces_expanded_iff column text _).mp rfl
    rw [hread] at h
    obtain ⟨lexeme, rest, rfl, hquoted, hcontent, rfl⟩ := (prompt?_expanded_iff _ _ _ _).mp h
    exact ⟨gap, lexeme, rest, rfl, hgap, hquoted, hcontent, by rw [Text.columnAfter_append]⟩
  · rintro ⟨gap, lexeme, rest, rfl, hgap, hquoted, hcontent, rfl⟩
    have hread : skipSpaces (expanded column (gap ++ (lexeme ++ rest))) =
        expanded (columnAfter column gap) (lexeme ++ rest) := by
      refine (skipSpaces_expanded_iff _ _ _).mpr ⟨gap, _, rfl, hgap, ?_, rfl⟩
      obtain ⟨body, rfl, -⟩ := hquoted
      rfl
    rw [hread, Text.columnAfter_append]
    exact (prompt?_expanded_iff _ _ _ _).mpr ⟨lexeme, rest, rfl, hquoted, hcontent, rfl⟩

theorem startsPrompt_iff (column : Nat) (text : List Char) :
    StartsPrompt text ↔ (prompt? (skipSpaces (expanded column text))).isSome = true := by
  rw [Option.isSome_iff_exists]
  constructor
  · rintro ⟨gap, lexeme, rest, rfl, hgap, hquoted⟩
    obtain ⟨content, hcontent⟩ :=
      ((isQuoted_expanded_iff (columnAfter column gap) lexeme).mpr hquoted).exists_prompt?
    exact ⟨_, (prompt?_skipSpaces_expanded_iff _ _ _ _).mpr
      ⟨gap, lexeme, rest, rfl, hgap, hquoted, hcontent, rfl⟩⟩
  · rintro ⟨⟨content, after⟩, h⟩
    obtain ⟨gap, lexeme, rest, rfl, hgap, hquoted, -⟩ :=
      (prompt?_skipSpaces_expanded_iff _ _ _ _).mp h
    exact ⟨gap, lexeme, rest, rfl, hgap, hquoted⟩

theorem consoleItem_expanded_iff (make : String → Instruction) (default : String) (column : Nat)
    (text : List Char) (item : Item) (after : List Char) :
    consoleItem make default (expanded column text) = (item, after) ↔
      ∃ lexeme rest piece, text = lexeme ++ rest ∧
        IsOperand column (.prompt make default) lexeme rest piece ∧ item = piece.item ∧
        after = expanded (columnAfter column lexeme) rest := by
  constructor
  · intro h
    unfold consoleItem at h
    split at h
    · rename_i content _ hprompt
      cases h
      obtain ⟨gap, lexeme, rest, rfl, hgap, hquoted, hcontent, rfl⟩ :=
        (prompt?_skipSpaces_expanded_iff _ _ _ _).mp hprompt
      exact ⟨gap ++ lexeme, rest, _, (List.append_assoc ..).symm, .prompt hgap hquoted hcontent,
        rfl, rfl⟩
    · rename_i hnone
      cases h
      refine ⟨[], text, _, rfl, .noPrompt ?_, rfl, rfl⟩
      rw [startsPrompt_iff column, hnone]
      exact Bool.false_ne_true
  · rintro ⟨_, rest, _, rfl, hoperand, rfl, rfl⟩
    cases hoperand with
    | @prompt _ _ gap lexeme content _ hgap hquoted hcontent =>
      have hprompt := (prompt?_skipSpaces_expanded_iff _ _ _ _).mpr
        ⟨gap, lexeme, rest, List.append_assoc .., hgap, hquoted, hcontent, rfl⟩
      rw [consoleItem, hprompt]
      rfl
    | noPrompt hnone =>
      rw [startsPrompt_iff column] at hnone
      rw [consoleItem, List.nil_append, Option.not_isSome_iff_eq_none.mp hnone]
      rfl

end Accumulator.Assembly
