import Accumulator.Proofs.Joining

/-!
Programs in source form. A statement is printed on a line of its own, in whatever way lines may be
laid out: indented, in any mixture of cases, below blank lines and comments, before a comment. The
line is scanned to the statement (`scan_line`), so a printed program assembles to its instructions;
and whatever assembles can be printed (`writable_of_scan`).
-/

set_option autoImplicit false
set_option relaxedAutoImplicit false

namespace Accumulator.Assembly

/-! ### Statements in source form -/

/-- A character of a prompt as it is written between quotes. -/
def escaped : Char → List Char
  | '\\' => ['\\', '\\']
  | '"' => ['\\', '"']
  | '\n' => ['\\', 'n']
  | '\r' => ['\\', 'r']
  | '\t' => ['\\', 't']
  | c => [c]

def quoted (prompt : String) : List Char := '"' :: (prompt.toList.flatMap escaped ++ ['"'])

def decimal (index : Value) : List Char := Nat.toDigits 10 index.toInt.toNat

/-- A mnemonic in lower case, apart from the letters that are to be capitals. -/
def Mnemonic.written (capital : Nat → Bool) (m : Mnemonic) : List Char :=
  m.spelling.mapIdx fun k c ↦ if capital k then c else c.toLower

def statement (capital : Nat → Bool) : Instruction → List Char
  | .label name => name.toList ++ [':']
  | .add index => Mnemonic.add.written capital ++ ' ' :: decimal index
  | .sub index => Mnemonic.sub.written capital ++ ' ' :: decimal index
  | .store index => Mnemonic.sta.written capital ++ ' ' :: decimal index
  | .load index => Mnemonic.lda.written capital ++ ' ' :: decimal index
  | .jump target => Mnemonic.jmp.written capital ++ ' ' :: target.toList
  | .jumpIfZero target => Mnemonic.jz.written capital ++ ' ' :: target.toList
  | .jumpIfNonNegative target => Mnemonic.jge.written capital ++ ' ' :: target.toList
  | .halt => Mnemonic.hlt.written capital
  | .input prompt => Mnemonic.inp.written capital ++ ' ' :: quoted prompt
  | .output prompt => Mnemonic.out.written capital ++ ' ' :: quoted prompt

/-- The instruction has a source form: names are identifiers, and registers have numbers that are
not too long. -/
def Writable : Instruction → Prop
  | .label name | .jump name | .jumpIfZero name | .jumpIfNonNegative name =>
      IsIdentifier name.toList
  | .add index | .sub index | .store index | .load index =>
      ∃ n : Nat, index = .int n ∧ n < Numeral.bound
  | .halt | .input _ | .output _ => True

/-- What may stand on a line behind a statement, or without any. -/
structure Trailer where
  gap : List Char
  remark : Option (List Char)
  inline : ∀ c ∈ gap, isInlineSpace c = true
  oneLine : ∀ text ∈ remark, '\n' ∉ text

def Trailer.text (trailer : Trailer) : List Char :=
  trailer.gap ++ match trailer.remark with
    | some text => '/' :: '/' :: text
    | none => []

/-- How a statement is laid out: below which lines, how far indented, with which capitals, and
before what. -/
structure Layout where
  above : List Trailer
  indent : List Char
  capital : Nat → Bool
  behind : Trailer
  inline : ∀ c ∈ indent, isInlineSpace c = true

def Layout.line (layout : Layout) (i : Instruction) : List Char :=
  layout.indent ++ (statement layout.capital i ++ layout.behind.text)

def Layout.lines (layout : Layout) (i : Instruction) : List (List Char) :=
  layout.above.map Trailer.text ++ [layout.line i]

/-- A program in source form, each statement with its layout. -/
def printed (statements : List (Layout × Instruction)) (below : List Trailer) : List Char :=
  ['\n'].intercalate
    ((statements.flatMap fun (layout, i) ↦ layout.lines i) ++ below.map Trailer.text)

/-! ### Prompts -/

/-- An escaped backslash or quote stands for itself, also before a digit. -/
theorem escape?_self {c : Char} (hc : c = '\\' ∨ c = '"') (rest : List Char) :
    escape? (c :: rest) = some ([c], rest) := by
  by_cases hthree : ∃ more, rest = '3' :: more
  · obtain ⟨more, rfl⟩ := hthree
    rcases hc with rfl | rfl <;> rfl
  · have hno (more : List Char) : rest ≠ '3' :: more := fun h ↦ hthree ⟨more, h⟩
    rcases hc with rfl | rfl
    · simp [escape?]
    · simp [escape?]

theorem promptContent?_escape {text content after : List Char} (done : List Char)
    (h : escape? text = some (content, after)) :
    promptContent? done ('\\' :: text) = promptContent? (content.reverse ++ done) after := by
  rw [promptContent?]
  split
  · simp_all
  · rename_i found _ hfound
    rw [h] at hfound
    cases hfound
    rfl

theorem promptContent?_escaped (done content rest : List Char) :
    promptContent? done (content.flatMap escaped ++ '"' :: rest) =
      some (done.reverse ++ content, rest) := by
  induction content generalizing done with
  | nil => simp [promptContent?]
  | cons c content ih =>
    have hnext (hread : ∀ tail, promptContent? done (escaped c ++ tail) =
        promptContent? (c :: done) tail) :
        promptContent? done ((c :: content).flatMap escaped ++ '"' :: rest) =
          some (done.reverse ++ c :: content, rest) := by
      rw [List.flatMap_cons, List.append_assoc, hread, ih, List.reverse_cons, List.append_assoc]
      rfl
    apply hnext
    intro tail
    by_cases hbackslash : c = '\\'
    · subst hbackslash
      exact promptContent?_escape done (escape?_self (.inl rfl) tail)
    by_cases hquote : c = '"'
    · subst hquote
      exact promptContent?_escape done (escape?_self (.inr rfl) tail)
    by_cases hnewline : c = '\n'
    · subst hnewline
      have hescape : escape? ('n' :: tail) = some (['\n'], tail) := rfl
      exact promptContent?_escape done hescape
    by_cases hreturn : c = '\r'
    · subst hreturn
      have hescape : escape? ('r' :: tail) = some (['\r'], tail) := rfl
      exact promptContent?_escape done hescape
    by_cases htab : c = '\t'
    · subst htab
      have hescape : escape? ('t' :: tail) = some (['\t'], tail) := rfl
      exact promptContent?_escape done hescape
    rw [escaped, List.singleton_append, promptContent?, if_neg (by simp [hnewline, hreturn])]
    all_goals assumption

theorem prompt?_quoted (prompt : String) : prompt? (quoted prompt) = some (prompt.toList, []) :=
  promptContent?_escaped [] prompt.toList []

theorem isQuoted_quoted (prompt : String) : IsQuoted (quoted prompt) := by
  obtain ⟨lexeme, hlexeme, hquoted, -⟩ := (prompt?_eq_some_iff _ _ _).mp (prompt?_quoted prompt)
  rw [List.append_nil] at hlexeme
  exact hlexeme ▸ hquoted

theorem tab_not_mem_quoted (prompt : String) : '\t' ∉ quoted prompt := by
  have hescaped (c : Char) : '\t' ∉ escaped c := by
    unfold escaped
    split
    all_goals try decide
    rename_i htab
    rw [List.mem_singleton]
    exact fun h ↦ htab h.symm
  simp [quoted, hescaped]

/-! ### Numbers -/

theorem ofDigits_eq (digits : List Char) : Numeral.ofDigits digits = Nat.ofDigitChars 10 digits 0 :=
  Nat.ofDigitChars_eq_foldl.symm

theorem read_toDigits {n : Nat} (h : n < Numeral.bound) :
    Numeral.read (Nat.toDigits 10 n) = .ok n := by
  rw [Numeral.read_eq_ok_iff, ofDigits_eq, Nat.ofDigitChars_ten_toDigits]
  have hpos : 0 < Numeral.maxDigits := by decide
  unfold Numeral.bound at h
  generalize Numeral.maxDigits = digits at h hpos ⊢
  exact ⟨(Nat.length_toDigits_le_iff (by decide) hpos).mpr h, rfl⟩

theorem isDigit_of_mem_toDigits {n : Nat} {c : Char} (h : c ∈ Nat.toDigits 10 n) :
    Numeral.isDigit c = true := by
  have hdigit := Nat.isDigit_of_mem_toDigits (by decide) (by decide) h
  simpa [Char.isDigit, Numeral.isDigit, Char.le_def] using hdigit

theorem ofDigits_lt_pow {digits : List Char} (h : ∀ c ∈ digits, Numeral.isDigit c = true) :
    Numeral.ofDigits digits < Nat.pow 10 digits.length := by
  rw [ofDigits_eq]
  show Nat.ofDigitChars 10 digits 0 < 10 ^ digits.length
  induction digits with
  | nil => decide
  | cons c digits ih =>
    obtain ⟨hc, hdigits⟩ := List.forall_mem_cons.mp h
    have hrest := ih hdigits
    have hdigit : c.toNat - '0'.toNat ≤ 9 := by
      simp only [Numeral.isDigit, Bool.and_eq_true, decide_eq_true_eq, Char.le_def,
        UInt32.le_iff_toNat_le] at hc
      have hnine : c.toNat ≤ 57 := hc.2
      exact Nat.sub_le_iff_le_add.mpr hnine
    calc Nat.ofDigitChars 10 (c :: digits) 0
        = 10 ^ digits.length * (c.toNat - '0'.toNat) + Nat.ofDigitChars 10 digits 0 := by
          rw [Nat.ofDigitChars_cons, Nat.ofDigitChars_eq_ofDigitChars_zero, Nat.mul_zero,
            Nat.zero_add]
      _ < 10 ^ digits.length * (c.toNat - '0'.toNat) + 10 ^ digits.length :=
          Nat.add_lt_add_left hrest _
      _ = 10 ^ digits.length * (c.toNat - '0'.toNat + 1) := (Nat.mul_succ _ _).symm
      _ ≤ 10 ^ digits.length * 10 := Nat.mul_le_mul_left _ (Nat.succ_le_succ hdigit)
      _ = 10 ^ (c :: digits).length := (Nat.pow_succ ..).symm

/-! ### Mnemonics -/

theorem isSpelled_written (capital : Nat → Bool) (m : Mnemonic) :
    IsSpelled m (m.written capital) := by
  have hall : ∀ m ∈ Mnemonic.all,
      (m.spelling.all fun c ↦ upperCase c == c && upperCase c.toLower == c) = true := by decide
  have hspelling := List.all_eq_true.mp (hall m m.mem_all)
  unfold IsSpelled Mnemonic.written
  refine List.ext_getElem (by simp) fun k _ hk ↦ ?_
  rw [List.getElem_map, List.getElem_mapIdx]
  obtain ⟨hupper, hlower⟩ := Bool.and_eq_true_iff.mp (hspelling _ (List.getElem_mem hk))
  rw [beq_iff_eq] at hupper hlower
  split
  · exact hupper
  · exact hlower

theorem part_of_mem_written {capital : Nat → Bool} {m : Mnemonic} {c : Char}
    (hc : c ∈ m.written capital) : isIdentifierPart c = true := by
  have hall : ∀ m ∈ Mnemonic.all,
      (m.spelling.all fun c ↦ isIdentifierPart c && isIdentifierPart c.toLower) = true := by decide
  have hspelling := List.all_eq_true.mp (hall m m.mem_all)
  obtain ⟨k, hk, rfl⟩ := List.mem_mapIdx.mp hc
  obtain ⟨hupper, hlower⟩ := Bool.and_eq_true_iff.mp (hspelling _ (List.getElem_mem hk))
  split
  · exact hupper
  · exact hlower

/-! ### What stands behind a statement -/

theorem isSpace_of_isInlineSpace {c : Char} (h : isInlineSpace c = true) : isSpace c = true := by
  rw [isInlineSpace, Bool.or_eq_true] at h
  rcases h with h | h <;> simp [isSpace, h]

/-- A statement ends where its line goes on with space or a comment. -/
theorem Trailer.any_head? (trailer : Trailer) {p : Char → Bool} (hspace : p ' ' = false)
    (htab : p '\t' = false) (hslash : p '/' = false) :
    trailer.text.head?.any p = false := by
  unfold text
  cases hgap : trailer.gap with
  | nil =>
    cases trailer.remark with
    | none => rfl
    | some remark => exact hslash
  | cons c gap =>
    have hc := trailer.inline c (hgap ▸ List.mem_cons_self)
    rw [isInlineSpace, Bool.or_eq_true, beq_iff_eq, beq_iff_eq] at hc
    rcases hc with rfl | rfl
    · exact hspace
    · exact htab

theorem Trailer.head?_ne_colon (trailer : Trailer) :
    (trailer.text.dropWhile isSpace).head? ≠ some ':' := by
  have hgap : ∀ c ∈ trailer.gap, isSpace c = true := fun c hc ↦
    isSpace_of_isInlineSpace (trailer.inline c hc)
  rw [text, List.dropWhile_append_of_pos hgap]
  cases trailer.remark <;> simp [isSpace]

/-- The pieces of what stands behind a statement. -/
def Trailer.pieces (trailer : Trailer) : List Piece :=
  match trailer.remark with
  | some _ => [.comment]
  | none => []

theorem Trailer.sound_pieces (trailer : Trailer) : Sound trailer.pieces := by
  unfold pieces
  split
  · exact ⟨by simp [Piece.unknown?], by simp [Piece.overlong?]⟩
  · exact ⟨by simp, by simp⟩

theorem Trailer.instructions_pieces (trailer : Trailer) :
    trailer.pieces.filterMap Piece.instruction? = [] := by
  unfold pieces
  split <;> rfl

theorem Trailer.scan (trailer : Trailer) (before : List Char) :
    Scan before trailer.text trailer.pieces := by
  have hgap : ∀ c ∈ trailer.gap, isSpace c = true := fun c hc ↦
    isSpace_of_isInlineSpace (trailer.inline c hc)
  refine scan_row hgap ?_
  unfold pieces
  cases hremark : trailer.remark with
  | none => exact .done
  | some remark =>
    have hcomment : IsComment ('/' :: '/' :: remark) [] :=
      ⟨remark, rfl, trailer.oneLine remark hremark, rfl⟩
    have hhead : ('/' :: '/' :: remark ++ []).head?.all isSpace = false := rfl
    have htake : Scan (before ++ trailer.gap) ('/' :: '/' :: remark ++ []) [.comment] :=
      .take hhead (.comment hcomment) .done
    rwa [List.append_nil] at htake

/-! ### Statements on their lines -/

variable {before word operand rest : List Char} {m : Mnemonic} {piece : Piece}

theorem not_startsComment {text : List Char} (h : text.head? ≠ some '/') :
    ¬ StartsComment text := by
  rw [startsComment_iff_slashes]
  rintro ⟨rest, rfl⟩
  exact h rfl

theorem not_startsLabel (hword : ∀ c ∈ word, isIdentifierPart c = true)
    (hend : rest.head?.any isIdentifierPart = false)
    (hcolon : (rest.dropWhile isSpace).head? ≠ some ':') : ¬ StartsLabel (word ++ rest) := by
  rw [startsLabel_iff_head, ((longest_row_iff _ _ _).mpr ⟨rfl, hword, hend⟩).2]
  exact fun h ↦ hcolon h.2

theorem takes_command (capital : Nat → Bool)
    (hbehind : before.getLast?.any continuesMnemonic = false)
    (hend : (operand ++ rest).head?.any continuesMnemonic = false)
    (hcolon : ((operand ++ rest).dropWhile isSpace).head? ≠ some ':')
    (hoperand : ∀ column, IsOperand column m.form operand rest piece) :
    Takes before (m.written capital ++ operand) rest piece := by
  have hword := isSpelled_written capital m
  refine .command ?_ ?_ (.intro hword hbehind hend (hoperand _))
  · obtain ⟨c, letters, hletters, hc⟩ := hword.exists_cons
    rw [hletters]
    refine not_startsComment fun hslash ↦ ?_
    cases hslash
    contradiction
  · rw [List.append_assoc]
    exact not_startsLabel (fun c hc ↦ part_of_mem_written hc)
      (any_eq_false_of_imp (fun _ ↦ continuesMnemonic_of_isIdentifierPart) hend) hcolon

/-- A command whose operand stands one space behind its mnemonic. -/
theorem takes_operand (capital : Nat → Bool)
    (hbehind : before.getLast?.any continuesMnemonic = false)
    (hfirst : ∃ c more, operand = c :: more ∧ isSpace c = false ∧ c ≠ ':')
    (hoperand : ∀ column, IsOperand column m.form ([' '] ++ operand) rest piece) :
    Takes before (m.written capital ++ ' ' :: operand) rest piece := by
  obtain ⟨c, more, rfl, hspace, hcolon⟩ := hfirst
  refine takes_command capital hbehind (by rfl) ?_ hoperand
  rw [List.cons_append, List.dropWhile_cons_of_pos (by decide), List.cons_append,
    List.dropWhile_cons_of_neg (Bool.eq_false_iff.mp hspace)]
  exact fun hhead ↦ hcolon (Option.some.inj hhead)

section

variable {capital : Nat → Bool} {trailer : Trailer}

theorem takes_register (hbehind : before.getLast?.any continuesMnemonic = false)
    {make : Value → Instruction} (hform : m.form = .register make) {n : Nat}
    (hn : n < Numeral.bound) :
    Takes before (m.written capital ++ ' ' :: decimal (.int n)) trailer.text
      (.instruction (make (.int n))) := by
  have hdecimal : decimal (.int n) = Nat.toDigits 10 n := rfl
  have hdigits : ∀ c ∈ Nat.toDigits 10 n, Numeral.isDigit c = true := fun c hc ↦
    isDigit_of_mem_toDigits hc
  have hpiece : registerPiece make (Nat.toDigits 10 n) = .instruction (make (.int n)) := by
    rw [registerPiece, read_toDigits hn]
  rw [hdecimal, ← hpiece]
  refine takes_operand capital hbehind ?_ fun column ↦ ?_
  · obtain ⟨c, more, hmore⟩ := List.exists_cons_of_ne_nil (@Nat.toDigits_ne_nil n 10)
    have hc := hdigits c (hmore ▸ List.mem_cons_self)
    refine ⟨c, more, hmore, isSpace_eq_false (by decide) hc, ?_⟩
    rintro rfl
    exact absurd hc (by decide)
  · rw [hform]
    exact .register (List.forall_mem_singleton.mpr rfl) Nat.toDigits_ne_nil hdigits
      (trailer.any_head? (by decide +kernel) (by decide +kernel) (by decide +kernel))

theorem takes_target (hbehind : before.getLast?.any continuesMnemonic = false)
    {make : String → Instruction} (hform : m.form = .target make) {name : String}
    (hname : IsIdentifier name.toList) :
    Takes before (m.written capital ++ ' ' :: name.toList) trailer.text
      (.instruction (make name)) := by
  refine takes_operand capital hbehind ?_ fun column ↦ ?_
  · obtain ⟨c, more, hmore, hc, -⟩ := hname
    refine ⟨c, more, hmore, isSpace_eq_false (by decide) hc, ?_⟩
    rintro rfl
    contradiction
  · have htarget : IsOperand column (.target make) ([' '] ++ name.toList) trailer.text
        (.instruction (make (String.ofList name.toList))) :=
      .target (List.forall_mem_singleton.mpr rfl) hname
        (trailer.any_head? (by decide) (by decide) (by decide))
    rwa [String.ofList_toList, ← hform] at htarget

theorem takes_prompt (hbehind : before.getLast?.any continuesMnemonic = false)
    {make : String → Instruction} {default : String} (hform : m.form = .prompt make default)
    (prompt : String) :
    Takes before (m.written capital ++ ' ' :: quoted prompt) rest
      (.instruction (make prompt)) := by
  refine takes_operand capital hbehind ⟨'"', _, rfl, by decide, by decide⟩ fun column ↦ ?_
  have hcontent : prompt? (Text.expanded (Text.columnAfter column [' ']) (quoted prompt)) =
      some (prompt.toList, []) := by
    rw [Text.expanded_of_no_tab (tab_not_mem_quoted prompt), prompt?_quoted]
  have hprompt : IsOperand column (.prompt make default) ([' '] ++ quoted prompt) rest
      (.instruction (make (String.ofList prompt.toList))) :=
    .prompt (List.forall_mem_singleton.mpr rfl) (isQuoted_quoted prompt) hcontent
  rwa [String.ofList_toList, ← hform] at hprompt

end

theorem takes_statement {i : Instruction} (h : Writable i) (capital : Nat → Bool)
    (trailer : Trailer) (hbehind : before.getLast?.any continuesMnemonic = false) :
    Takes before (statement capital i) trailer.text (.instruction i) := by
  cases i with
  | label name =>
    have hlabel : IsLabel name.toList (name.toList ++ [':']) := ⟨[], rfl, h, by simp⟩
    have hcomment : ¬ StartsComment (name.toList ++ [':'] ++ trailer.text) := by
      refine not_startsComment fun hslash ↦ ?_
      obtain ⟨c, others, hname, hc, -⟩ := h
      rw [hname] at hslash
      cases hslash
      contradiction
    have htakes : Takes before (name.toList ++ [':']) trailer.text
        (.instruction (.label (String.ofList name.toList))) := .label hcomment hlabel
    rwa [String.ofList_toList] at htakes
  | add | sub | store | load =>
    obtain ⟨n, rfl, hn⟩ := h
    exact takes_register hbehind rfl hn
  | jump | jumpIfZero | jumpIfNonNegative => exact takes_target hbehind rfl h
  | input | output => exact takes_prompt hbehind rfl _
  | halt =>
    have hend : trailer.text.head?.any continuesMnemonic = false :=
      trailer.any_head? (by decide) (by decide) (by decide)
    have htakes : Takes before (Mnemonic.hlt.written capital ++ []) trailer.text
        (.instruction .halt) :=
      takes_command capital hbehind hend trailer.head?_ne_colon fun _ ↦ .plain
    rwa [List.append_nil] at htakes

theorem scan_line (layout : Layout) {i : Instruction} (h : Writable i) :
    Scan [] (layout.line i) (.instruction i :: layout.behind.pieces) := by
  have hindent : ∀ c ∈ layout.indent, isSpace c = true := fun c hc ↦
    isSpace_of_isInlineSpace (layout.inline c hc)
  have hbehind : layout.indent.getLast?.any continuesMnemonic = false := by
    cases hlast : layout.indent.getLast? with
    | none => rfl
    | some c =>
      have hc : continuesMnemonic c = false :=
        eq_false_of_isSpace (by decide) (hindent c (List.mem_of_getLast? hlast))
      exact hc
  have htakes := takes_statement h layout.capital layout.behind hbehind
  obtain ⟨c, more, hmore, hspace, -⟩ := htakes.exists_cons
  refine scan_row hindent (.take ?_ htakes (layout.behind.scan _))
  rw [hmore]
  exact hspace

/-! ### Printed programs -/

/-- The line is read as these pieces. -/
def Reads (line : List Char) (pieces : List Piece) : Prop := Scan [] line pieces ∧ Sound pieces

theorem reads_trailers (trailers : List Trailer) :
    List.Forall₂ Reads (trailers.map Trailer.text) (trailers.map Trailer.pieces) := by
  rw [List.forall₂_map_left_iff, List.forall₂_map_right_iff, List.forall₂_same]
  exact fun trailer _ ↦ ⟨trailer.scan [], trailer.sound_pieces⟩

theorem instructions_trailers (trailers : List Trailer) :
    (trailers.map Trailer.pieces).flatten.filterMap Piece.instruction? = [] := by
  induction trailers with
  | nil => rfl
  | cons trailer trailers ih =>
    rw [List.map_cons, List.flatten_cons, List.filterMap_append, trailer.instructions_pieces, ih]
    rfl

/-- The pieces of the lines of a statement. -/
def Layout.rows (layout : Layout) (i : Instruction) : List (List Piece) :=
  layout.above.map Trailer.pieces ++ [.instruction i :: layout.behind.pieces]

theorem reads_line (layout : Layout) {i : Instruction} (h : Writable i) :
    Reads (layout.line i) (.instruction i :: layout.behind.pieces) :=
  ⟨scan_line layout h, List.forall_mem_cons.mpr ⟨rfl, layout.behind.sound_pieces.known⟩,
    List.forall_mem_cons.mpr ⟨rfl, layout.behind.sound_pieces.short⟩⟩

theorem reads_lines {statements : List (Layout × Instruction)}
    (h : ∀ s ∈ statements, Writable s.2) :
    List.Forall₂ Reads (statements.flatMap fun (layout, i) ↦ layout.lines i)
      (statements.flatMap fun (layout, i) ↦ layout.rows i) := by
  induction statements with
  | nil => exact .nil
  | cons s statements ih =>
    obtain ⟨hfirst, hothers⟩ := List.forall_mem_cons.mp h
    rw [List.flatMap_cons, List.flatMap_cons]
    exact List.rel_append (List.rel_append (reads_trailers s.1.above)
      (.cons (reads_line s.1 hfirst) .nil)) (ih hothers)

theorem instructions_rows (statements : List (Layout × Instruction)) :
    (statements.flatMap fun (layout, i) ↦ layout.rows i).flatten.filterMap Piece.instruction? =
      statements.map (·.2) := by
  induction statements with
  | nil => rfl
  | cons s statements ih =>
    have hrow : (s.1.rows s.2).flatten.filterMap Piece.instruction? = [s.2] := by
      rw [Layout.rows, List.flatten_append, List.filterMap_append, instructions_trailers,
        List.nil_append, List.flatten_singleton, List.filterMap_cons,
        s.1.behind.instructions_pieces]
      rfl
    rw [List.flatMap_cons, List.flatten_append, List.filterMap_append, ih, hrow]
    rfl

theorem assemble_printed {statements : List (Layout × Instruction)}
    (h : ∀ s ∈ statements, Writable s.2) (below : List Trailer) (name : String) :
    assemble [⟨name, String.ofList (printed statements below)⟩] = .ok (statements.map (·.2)) := by
  obtain ⟨hscan, hsound⟩ := scan_joined (List.rel_append (reads_lines h) (reads_trailers below))
  rw [assemble_singleton, SourceUnit.assemble_eq_ok_iff, String.toList_ofList]
  refine ⟨_, hscan, hsound, ?_⟩
  rw [List.flatten_append, List.filterMap_append, instructions_rows, instructions_trailers,
    List.append_nil]

/-! ### What assembles can be printed -/

theorem writable_of_registerPiece {make : Value → Instruction} {digits : List Char}
    (hdigits : ∀ c ∈ digits, Numeral.isDigit c = true) {i : Instruction}
    (hi : (registerPiece make digits).instruction? = some i) :
    ∃ n : Nat, i = make (.int n) ∧ n < Numeral.bound := by
  unfold registerPiece at hi
  split at hi
  · rename_i n hread
    obtain ⟨hlength, rfl⟩ := (Numeral.read_eq_ok_iff _ _).mp hread
    cases hi
    exact ⟨_, rfl, Numeral.lt_bound_of_lt_pow (ofDigits_lt_pow hdigits) hlength⟩
  · contradiction

theorem isIdentifier_ofList {name : List Char} (h : IsIdentifier name) :
    IsIdentifier (String.ofList name).toList := by
  rwa [String.toList_ofList]

theorem writable_of_isOperand {column : Nat} {i : Instruction}
    (h : IsOperand column m.form operand rest piece) (hi : piece.instruction? = some i) :
    Writable i := by
  cases m
  case add | sub | sta | lda =>
    cases h with
    | register _ _ hdigits _ =>
      obtain ⟨n, rfl, hn⟩ := writable_of_registerPiece hdigits hi
      exact ⟨n, rfl, hn⟩
  case jmp | jz | jge =>
    cases h with
    | target _ hname _ =>
      cases hi
      exact isIdentifier_ofList hname
  case inp | out =>
    cases h with
    | prompt =>
      cases hi
      trivial
    | noPrompt =>
      cases hi
      trivial
  case hlt =>
    cases h with
    | plain =>
      cases hi
      trivial

theorem writable_of_takes {lexeme : List Char} {i : Instruction}
    (h : Takes before lexeme rest piece) (hi : piece.instruction? = some i) : Writable i := by
  cases h with
  | comment => contradiction
  | label _ h =>
    obtain ⟨gap, -, hname, -⟩ := h
    cases hi
    exact isIdentifier_ofList hname
  | command _ _ h =>
    obtain ⟨-, -, -, hoperand⟩ := h
    exact writable_of_isOperand hoperand hi

theorem writable_of_scan {text : List Char} {pieces : List Piece} (h : Scan before text pieces) :
    ∀ i ∈ pieces.filterMap Piece.instruction?, Writable i := by
  induction h with
  | done => exact fun i hi ↦ absurd hi List.not_mem_nil
  | skip _ _ ih => exact ih
  | take _ h _ ih =>
    intro i hi
    obtain ⟨piece, hpiece, hsome⟩ := List.mem_filterMap.mp hi
    rcases List.mem_cons.mp hpiece with rfl | hpiece
    · exact writable_of_takes h hsome
    · exact ih i (List.mem_filterMap.mpr ⟨piece, hpiece, hsome⟩)
  | resume _ _ _ _ _ ih => exact ih

theorem writable_of_assemble {units : List SourceUnit} {instructions : List Instruction}
    (h : assemble units = .ok instructions) : ∀ i ∈ instructions, Writable i := by
  obtain ⟨lists, hlists, rfl⟩ := (assemble_eq_ok_iff _ _).mp h
  obtain ⟨rows, hrows, hinstructions⟩ := exists_rows hlists
  rw [hinstructions]
  exact writable_of_scan (scan_joined hrows).1

/-- Assembling undoes printing, whatever the layout: a printed list assembles to itself, and every
list that ever comes out of assembling can be printed. -/
theorem assemble_inverts_printing :
    (∀ (statements : List (Layout × Instruction)) (below : List Trailer) (name : String),
      (∀ s ∈ statements, Writable s.2) →
        assemble [⟨name, String.ofList (printed statements below)⟩] =
          .ok (statements.map (·.2))) ∧
    ∀ (units : List SourceUnit) (instructions : List Instruction),
      assemble units = .ok instructions →
        (∀ i ∈ instructions, Writable i) ∧
          ∀ (statements : List (Layout × Instruction)) (below : List Trailer) (name : String),
            statements.map (·.2) = instructions →
              assemble [⟨name, String.ofList (printed statements below)⟩] = .ok instructions := by
  refine ⟨fun statements below name h ↦ assemble_printed h below name, ?_⟩
  intro units instructions h
  have hwritable := writable_of_assemble h
  refine ⟨hwritable, ?_⟩
  rintro statements below name rfl
  exact assemble_printed (List.forall_mem_map.mp hwritable) below name

/-- Two instructions under a remark, the first in mixed case, with an escaped prompt and an empty
remark behind it, the second without an indentation. -/
theorem assemble_inverts_printing_of_output :
    assemble [⟨"main", "// a:\n\tOut \"\\\"\\\\3\" //\nadd 7"⟩] =
        .ok [.output "\"\\3", .add (.int 7)] ∧
      ∀ i ∈ [Instruction.output "\"\\3", .add (.int 7)], Writable i := by
  let remark : Trailer := ⟨[], some " a:".toList, by simp, by simp⟩
  let empty : Trailer := ⟨[' '], some [], by simp [isInlineSpace], by simp⟩
  let nothing : Trailer := ⟨[], none, by simp, by simp⟩
  let statements : List (Layout × Instruction) :=
    [(⟨[remark], ['\t'], (· == 0), empty, by simp [isInlineSpace]⟩, .output "\"\\3"),
      (⟨[], [], fun _ ↦ false, nothing, by simp⟩, .add (.int 7))]
  have hwritable : ∀ s ∈ statements, Writable s.2 :=
    List.forall_mem_cons.mpr ⟨trivial, List.forall_mem_singleton.mpr
      ⟨7, rfl, Numeral.lt_bound_of_lt_pow (k := 1) (by decide) (by decide)⟩⟩
  have htext : String.ofList (printed statements []) =
      "// a:\n\tOut \"\\\"\\\\3\" //\nadd 7" := by decide +kernel
  have hfirst := assemble_inverts_printing.1 statements [] "main" hwritable
  rw [htext] at hfirst
  exact ⟨hfirst, (assemble_inverts_printing.2 _ _ hfirst).1⟩

end Accumulator.Assembly
