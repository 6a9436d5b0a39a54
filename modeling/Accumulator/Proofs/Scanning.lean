import Accumulator.Proofs.Issuing
import Accumulator.Proofs.NextItem
import Mathlib.Data.List.TakeWhile

/-!
The items of a source text against its scan: the items are the pieces that the scan comes upon
(`scan_iff`), of which every text has exactly one row. `SourceUnit.assemble_eq` reads off the pieces
what a unit comes to.
-/

set_option autoImplicit false
set_option relaxedAutoImplicit false

namespace Accumulator.Assembly

open Text (expanded columnAfter untabbed)

/-! ### Items and pieces -/

/-- The piece that an item of a source text stands for. -/
def Item.piece (source : List Char) : Item → Piece
  | .comment => .comment
  | .instruction i => .instruction i
  | .overlong cause => .overlong cause
  | .unknown text =>
      .unknown (1 + source.count '\n' - text.count '\n') (text.takeWhile (· != '\n'))

theorem piece_item_of_isOperand (source : List Char) {column : Nat} {form : Form}
    {operand rest : List Char} {piece : Piece} (h : IsOperand column form operand rest piece) :
    piece.item.piece source = piece := by
  cases h with
  | register =>
    unfold registerPiece
    split <;> rfl
  | target => rfl
  | prompt => rfl
  | noPrompt => rfl
  | plain => rfl

variable {before text lexeme rest : List Char} {piece : Piece} {pieces : List Piece}
  {behindWord : Bool}

theorem piece_item_of_takes (source : List Char) (h : Takes before lexeme rest piece) :
    piece.item.piece source = piece := by
  cases h with
  | comment => rfl
  | label => rfl
  | command _ _ h =>
    obtain ⟨-, -, -, hoperand⟩ := h
    exact piece_item_of_isOperand source hoperand

theorem piece_unknown {source before line rest : List Char}
    (hsource : source = expanded 0 (before ++ (line ++ rest))) (hline : '\n' ∉ line)
    (hend : rest.head?.all (· == '\n') = true) :
    Item.piece source (.unknown (expanded (columnAfter 0 before) (line ++ rest))) =
      .unknown (1 + before.count '\n') (expanded (columnAfter 0 before) line) := by
  obtain ⟨htake, -⟩ := (longest_row_iff (line ++ rest) line rest).mpr
    ⟨rfl, (forall_ne_newline_iff line).mpr hline, (any_ne_newline_iff rest).mpr hend⟩
  rw [Item.piece, hsource, Text.count_newline_expanded, Text.count_newline_expanded,
    List.count_append, ← Nat.add_assoc, Nat.add_sub_cancel, Text.takeWhile_expanded,
    funext newline_untabbed, htake]

theorem itemsOnto_spaces_append {c : Char} (hc : isSpacing c = true) (done : List Item)
    (behindWord : Bool) (more : Nat) (text : List Char) :
    itemsOnto done behindWord (List.replicate (more + 1) c ++ text) =
      itemsOnto done false text := by
  induction more generalizing behindWord with
  | zero =>
    rw [List.replicate_one, List.singleton_append, itemsOnto, dif_pos hc]
  | succ more ih =>
    rw [List.replicate_succ, List.cons_append, itemsOnto, dif_pos hc, ih]

theorem itemsOnto_of_nextItem {text after : List Char} {item : Item} {behindWord : Bool}
    (hhead : text.head?.all isSpacing = false) (h : nextItem behindWord text = (item, after))
    (done : List Item) :
    itemsOnto done behindWord text = itemsOnto (item :: done) item.endsInWord after := by
  cases text with
  | nil => contradiction
  | cons c text =>
    have hc : ¬ isSpacing c = true := Bool.eq_false_iff.mp hhead
    rw [itemsOnto, dif_neg hc, h]

theorem all_head?_expanded (column : Nat) (text : List Char) :
    (expanded column text).head?.all isSpacing = text.head?.all isSpace := by
  rw [Text.head?_expanded]
  cases text with
  | nil => rfl
  | cons c text => exact isSpacing_untabbed c

/-- The items of what follows a place are the pieces that the scan comes upon from there on. -/
theorem Scan.map_itemsOnto (h : Scan before text pieces)
    {source : List Char} (hsource : source = expanded 0 (before ++ text))
    (hplace : Behind before behindWord text) (done : List Item) :
    (itemsOnto done behindWord (expanded (columnAfter 0 before) text)).map (Item.piece source) =
      done.reverse.map (Item.piece source) ++ pieces := by
  induction h generalizing behindWord done with
  | done => rw [Text.expanded_nil, itemsOnto, List.append_nil]
  | @skip before rest c pieces hc _ ih =>
    obtain ⟨more, hmore⟩ := Text.exists_expandedChar (columnAfter 0 before) c
    have hspacing : isSpacing (untabbed c) = true := (isSpacing_untabbed c).trans hc
    rw [expanded, hmore, itemsOnto_spaces_append hspacing]
    have hcolumn : Text.nextColumn (columnAfter 0 before) c = columnAfter 0 (before ++ [c]) :=
      (Text.columnAfter_append 0 before [c]).symm
    rw [hcolumn]
    exact ih (by rw [hsource, List.append_assoc]; rfl) (behind_of_isSpace hc _ _) done
  | @take before lexeme rest piece pieces hhead h _ ih =>
    rw [← all_head?_expanded (columnAfter 0 before)] at hhead
    rw [itemsOnto_of_nextItem hhead (nextItem_of_takes hplace h),
      ih (by rw [hsource, List.append_assoc]) (behind_of_takes h), List.reverse_cons,
      List.map_append, List.append_assoc, List.map_singleton, piece_item_of_takes source h]
    rfl
  | @resume before line rest pieces hhead hnone hline hend _ ih =>
    have hread := hhead
    rw [← all_head?_expanded (columnAfter 0 before)] at hread
    have hrest : restOfLine (expanded (columnAfter 0 before) (line ++ rest)) =
        expanded (columnAfter 0 (before ++ line)) rest := by
      rw [Text.columnAfter_append]
      exact (restOfLine_expanded_iff _ _ _).mpr ⟨line, rest, rfl, hline, hend, rfl⟩
    rw [itemsOnto_of_nextItem hread (nextItem_of_not_takes hplace hnone), hrest,
      ih (by rw [hsource, List.append_assoc]) (behind_of_lineEnd hend _ _), List.reverse_cons,
      List.map_append, List.append_assoc, List.map_singleton,
      piece_unknown hsource hline hend]
    rfl

/-- Whatever is taken opens with something other than space and colons. -/
theorem Takes.exists_cons (h : Takes before lexeme rest piece) :
    ∃ c more, lexeme = c :: more ∧ isSpace c = false ∧ c ≠ ':' := by
  cases h with
  | comment h =>
    obtain ⟨remark, rfl, -⟩ := h
    exact ⟨'/', _, rfl, by decide, by decide⟩
  | label _ h =>
    obtain ⟨gap, rfl, ⟨c, others, rfl, hc, -⟩, -⟩ := h
    refine ⟨c, _, rfl, isSpace_eq_false (by decide) hc, ?_⟩
    rintro rfl
    contradiction
  | command _ _ h =>
    obtain ⟨hword, -, -, -⟩ := h
    obtain ⟨c, letters, rfl, hc⟩ := hword.exists_cons
    refine ⟨c, _, rfl, isSpace_eq_false (by decide) hc, ?_⟩
    rintro rfl
    contradiction

theorem Takes.ne_nil (h : Takes before lexeme rest piece) : lexeme ≠ [] := by
  obtain ⟨c, more, rfl, -⟩ := h.exists_cons
  exact List.cons_ne_nil c more

/-- Every text has a scan, from every place on. -/
theorem exists_scan (before text : List Char) : ∃ pieces, Scan before text pieces := by
  by_cases hspace : text.head?.all isSpace = true
  · cases text with
    | nil => exact ⟨[], .done⟩
    | cons c text =>
      obtain ⟨pieces, hpieces⟩ := exists_scan (before ++ [c]) text
      exact ⟨pieces, .skip hspace hpieces⟩
  · rw [Bool.not_eq_true] at hspace
    by_cases htakes : ∃ lexeme rest piece, text = lexeme ++ rest ∧ Takes before lexeme rest piece
    · obtain ⟨lexeme, rest, piece, hsplit, h⟩ := htakes
      have hlexeme := List.length_pos_iff.mpr h.ne_nil
      have hlength : rest.length < text.length := by
        rw [hsplit, List.length_append]
        omega
      obtain ⟨pieces, hpieces⟩ := exists_scan (before ++ lexeme) rest
      rw [hsplit] at hspace ⊢
      exact ⟨_, .take hspace h hpieces⟩
    · obtain ⟨line, rest, hsplit, hline, hend, -⟩ := (restOfLine_expanded_iff 0 text _).mp rfl
      rw [hsplit] at hspace htakes ⊢
      have hne : line ≠ [] := by
        rintro rfl
        cases rest with
        | nil => contradiction
        | cons c rest =>
          have hc : c = '\n' := beq_iff_eq.mp hend
          rw [hc] at hspace
          contradiction
      have hlength : rest.length < text.length := by
        have := List.length_pos_iff.mpr hne
        rw [hsplit, List.length_append]
        omega
      obtain ⟨pieces, hpieces⟩ := exists_scan (before ++ line) rest
      refine ⟨_, .resume hspace (fun lexeme after piece hsplit h ↦ ?_) hline hend hpieces⟩
      exact htakes ⟨lexeme, after, piece, hsplit, h⟩
termination_by text.length

/-- Space is skipped. -/
theorem scan_row {row : List Char} (hrow : ∀ c ∈ row, isSpace c = true)
    (h : Scan (before ++ row) rest pieces) : Scan before (row ++ rest) pieces := by
  induction row generalizing before with
  | nil =>
    rw [List.append_nil] at h
    exact h
  | cons c row ih =>
    obtain ⟨hc, hothers⟩ := List.forall_mem_cons.mp hrow
    exact .skip hc (ih hothers (by simpa using h))

/-! ### Units -/

theorem scan_iff (unit : SourceUnit) (pieces : List Piece) :
    Scan [] unit.contents.toList pieces ↔
      pieces = (items unit.source).map (Item.piece unit.source) := by
  have hread (pieces : List Piece) (h : Scan [] unit.contents.toList pieces) :
      pieces = (items unit.source).map (Item.piece unit.source) := by
    have hsource : unit.source = expanded 0 unit.contents.toList := Text.expandTabs_eq _
    have hplace : Behind [] false unit.contents.toList := .inl rfl
    have hitems := h.map_itemsOnto hsource hplace []
    rw [Text.columnAfter_nil, ← hsource] at hitems
    exact hitems.symm
  constructor
  · exact hread pieces
  · rintro rfl
    obtain ⟨pieces, hpieces⟩ := exists_scan [] unit.contents.toList
    exact hread pieces hpieces ▸ hpieces

/-- What a unit of that name comes to: a register number with too many digits counts before any
unknown command, and of several the first one. -/
def verdict (name : String) (pieces : List Piece) : Except Failure (List Instruction) :=
  match pieces.findSome? Piece.overlong? with
  | some cause => .error (.overlong cause)
  | none =>
      match pieces.findSome? Piece.unknown? with
      | some (line, command) =>
          .error (.fault (.syntaxError
            s!"Unknown command {String.ofList (Text.strip command)} in {name}" (some line)))
      | none => .ok (pieces.filterMap Piece.instruction?)

section

variable (source : List Char) (items : List Item)

theorem overlong?_pieces :
    (items.map (Item.piece source)).findSome? Piece.overlong? =
      items.findSome? Item.overlong? := by
  rw [List.findSome?_map]
  refine congrArg (items.findSome? ·) (funext fun item ↦ ?_)
  cases item <;> rfl

theorem unknown?_pieces :
    (items.map (Item.piece source)).findSome? Piece.unknown? =
      (items.findSome? Item.unknown?).map fun text ↦
        (1 + source.count '\n' - text.count '\n', text.takeWhile (· != '\n')) := by
  rw [List.findSome?_map, List.map_findSome?]
  refine congrArg (items.findSome? ·) (funext fun item ↦ ?_)
  cases item <;> rfl

theorem instruction?_pieces :
    (items.map (Item.piece source)).filterMap Piece.instruction? =
      items.filterMap Item.instruction? := by
  rw [List.filterMap_map]
  refine congrArg (items.filterMap ·) (funext fun item ↦ ?_)
  cases item <;> rfl

end

theorem SourceUnit.assemble_eq {unit : SourceUnit} {pieces : List Piece}
    (h : Scan [] unit.contents.toList pieces) : unit.assemble = verdict unit.name pieces := by
  rw [scan_iff] at h
  subst h
  rw [verdict, overlong?_pieces, unknown?_pieces, instruction?_pieces, assemble_eq_of_items]
  cases (items unit.source).findSome? Item.overlong? with
  | some cause => rfl
  | none => cases (items unit.source).findSome? Item.unknown? <;> rfl

/-- Nothing is wrong with the pieces. -/
structure Sound (pieces : List Piece) : Prop where
  known : ∀ piece ∈ pieces, piece.unknown? = none
  short : ∀ piece ∈ pieces, piece.overlong? = none

theorem verdict_eq_ok_iff (name : String) (pieces : List Piece) (instructions : List Instruction) :
    verdict name pieces = .ok instructions ↔
      Sound pieces ∧ instructions = pieces.filterMap Piece.instruction? := by
  constructor
  · intro h
    unfold verdict at h
    split at h
    · contradiction
    · rename_i hshort
      split at h
      · contradiction
      · rename_i hknown
        cases h
        exact ⟨⟨List.findSome?_eq_none_iff.mp hknown, List.findSome?_eq_none_iff.mp hshort⟩, rfl⟩
  · rintro ⟨⟨hknown, hshort⟩, rfl⟩
    rw [verdict, List.findSome?_eq_none_iff.mpr hshort, List.findSome?_eq_none_iff.mpr hknown]

/-- A unit assembles exactly if its scan comes upon nothing wrong. -/
theorem SourceUnit.assemble_eq_ok_iff (unit : SourceUnit) (instructions : List Instruction) :
    unit.assemble = .ok instructions ↔
      ∃ pieces, Scan [] unit.contents.toList pieces ∧ Sound pieces ∧
        instructions = pieces.filterMap Piece.instruction? := by
  constructor
  · intro h
    obtain ⟨pieces, hpieces⟩ := exists_scan [] unit.contents.toList
    rw [assemble_eq hpieces, verdict_eq_ok_iff] at h
    exact ⟨pieces, hpieces, h⟩
  · rintro ⟨pieces, hpieces, h⟩
    rw [assemble_eq hpieces, verdict_eq_ok_iff]
    exact h

/-- A unit has exactly one scan, and assembles as that comes out: a register number with too many
digits rejects it wherever it stands, then the first unknown command does, whose line is counted by
the line ends before it; otherwise the labels and commands are the instructions, in order. -/
theorem assemble_follows_scan (unit : SourceUnit) :
    ∃ pieces, (∀ other, Scan [] unit.contents.toList other ↔ other = pieces) ∧
      (∀ cause, pieces.findSome? Piece.overlong? = some cause →
        assemble [unit] = .error (.overlong cause)) ∧
      (pieces.findSome? Piece.overlong? = none →
        (pieces.findSome? Piece.unknown? = none →
          assemble [unit] = .ok (pieces.filterMap Piece.instruction?)) ∧
        ∀ line command, pieces.findSome? Piece.unknown? = some (line, command) →
          assemble [unit] = .error (.fault (.syntaxError
            s!"Unknown command {String.ofList (Text.strip command)} in {unit.name}"
            (some line)))) := by
  refine ⟨_, scan_iff unit, ?_⟩
  rw [assemble_singleton, SourceUnit.assemble_eq ((scan_iff unit _).mpr rfl)]
  refine ⟨fun cause hcause ↦ ?_, fun hshort ↦ ⟨fun hknown ↦ ?_, fun line command hunknown ↦ ?_⟩⟩
  · rw [verdict, hcause]
  · rw [verdict, hshort, hknown]
  · rw [verdict, hshort, hunknown]

/-- A word behind the digits of a register number makes the second line unknown, tab and all. -/
theorem assemble_follows_scan_to_second_line :
    Scan [] "hlt\n\tlda 3x".toList [.instruction .halt, .unknown 2 "lda 3x".toList] ∧
      assemble [⟨"main", "hlt\n\tlda 3x"⟩] =
        .error (.fault (.syntaxError "Unknown command lda 3x in main" (some 2))) := by
  have hscan : Scan [] "hlt\n\tlda 3x".toList
      [.instruction .halt, .unknown 2 "lda 3x".toList] :=
    (scan_iff ⟨"main", "hlt\n\tlda 3x"⟩ _).mpr (by decide +kernel)
  obtain ⟨pieces, hunique, -, hshort⟩ := assemble_follows_scan ⟨"main", "hlt\n\tlda 3x"⟩
  obtain rfl := (hunique _).mp hscan
  exact ⟨hscan, (hshort rfl).2 2 _ rfl⟩

/-- A scan may come to the end of a text and the text still be rejected, for a register number that
is too long. And a command that would be read at the start of a text is not read behind a word. -/
theorem scan_to_end_does_not_suffice :
    (Scan [] ("add ".toList ++ List.replicate 4301 '0') [.overlong (.reading 4301)] ∧
      assemble [{ contents := String.ofList ("add ".toList ++ List.replicate 4301 '0') }] =
        .error (.overlong (.reading 4301))) ∧
    Takes [] "jmp a".toList "ın".toList (.instruction (.jump "a")) ∧
      Takes [] "ın".toList [] (.instruction (.input Instruction.defaultInputPrompt)) ∧
      assemble [{ contents := "jmp aın" }] =
        .error (.fault (.syntaxError "Unknown command ın in <source>" (some 1))) := by
  refine ⟨?_, ?_, ?_, by decide +kernel⟩
  · have hscan : Scan [] (String.ofList ("add ".toList ++ List.replicate 4301 '0')).toList
        [.overlong (.reading 4301)] := by
      refine (scan_iff { contents := String.ofList ("add ".toList ++ List.replicate 4301 '0') }
        _).mpr ?_
      rw [SourceUnit.source, String.toList_ofList]
      decide +kernel
    constructor
    · rwa [String.toList_ofList] at hscan
    · rw [assemble_singleton]
      exact @SourceUnit.assemble_eq
        { contents := String.ofList ("add ".toList ++ List.replicate 4301 '0') } _ hscan
  · have hword : IsSpelled .jmp "jmp".toList := rfl
    have hname : IsIdentifier ['a'] := ⟨'a', [], rfl, by decide, by simp⟩
    have hgap : ∀ c ∈ [' '], isInlineSpace c = true := List.forall_mem_singleton.mpr rfl
    have htarget : IsOperand 3 Mnemonic.jmp.form ([' '] ++ ['a']) "ın".toList
        (.instruction (.jump "a")) := .target hgap hname (by decide)
    refine .command ?_ ?_ (.intro hword (by decide) (by decide) htarget)
    · rw [startsComment_iff 0]
      decide
    · rw [startsLabel_iff 0]
      decide
  · have hword : IsSpelled .inp "ın".toList := rfl
    have hnone : IsOperand 2 Mnemonic.inp.form [] []
        (.instruction (.input Instruction.defaultInputPrompt)) := .noPrompt (by
      rw [startsPrompt_iff 0]
      decide)
    refine .command ?_ ?_ (.intro hword (by decide) (by decide) hnone)
    · rw [startsComment_iff 0]
      decide
    · rw [startsLabel_iff 0]
      decide

end Accumulator.Assembly
