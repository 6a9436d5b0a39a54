import Accumulator.Assembly.Mnemonic
import Accumulator.Assembly.Prompt
import Accumulator.Instruction

/-!
Source text as a row of items. Between items spaces and line ends are skipped; at every other place
the first that applies is taken of a comment, a label, a command, and the rest of the line as
something unknown. Items need nothing between them, so several may stand on a line.

`items` loses nothing: it comes to the end of every text, since each item takes a character at
least.
-/

set_option autoImplicit false
set_option relaxedAutoImplicit false

namespace Accumulator.Assembly

inductive Item where
  | comment
  | instruction (i : Instruction)
  /-- A command whose register number has too many digits. -/
  | overlong (cause : Numeral.Overlong)
  /-- The text from something unknown on, up to the end of the source. -/
  | unknown (text : List Char)
  deriving DecidableEq, Repr

def restOfLine (text : List Char) : List Char := text.dropWhile (· != '\n')

def skipSpaces (text : List Char) : List Char := text.dropWhile (· == ' ')

theorem length_restOfLine_le (text : List Char) : (restOfLine text).length ≤ text.length :=
  (List.dropWhile_sublist _).length_le

theorem length_skipSpaces_le (text : List Char) : (skipSpaces text).length ≤ text.length :=
  (List.dropWhile_sublist _).length_le

/-- What follows a comment, which ends before the end of its line. -/
def comment? : List Char → Option (List Char)
  | '/' :: '/' :: rest => some (restOfLine rest)
  | _ => none

/-- The name of a label and what follows its colon, which may stand on a later line. -/
def label? (text : List Char) : Option (List Char × List Char) :=
  match identifier? text with
  | none => none
  | some (name, rest) =>
      match rest.dropWhile isSpacing with
      | ':' :: rest => some (name, rest)
      | _ => none

/-- A number that ends where its word ends. -/
def register? (text : List Char) : Option (Except Numeral.Overlong Nat × List Char) :=
  let digits := text.takeWhile Numeral.isDigit
  let rest := text.dropWhile Numeral.isDigit
  if digits.isEmpty || rest.head?.any Text.isWord then none else some (Numeral.read digits, rest)

/-- A command on a register: the instruction is made of the operand. -/
def registerItem (make : Value → Instruction) (text : List Char) : Option (Item × List Char) :=
  match register? (skipSpaces text) with
  | some (.ok index, rest) => some (.instruction (make (.int index)), rest)
  | some (.error cause, rest) => some (.overlong cause, rest)
  | none => none

/-- A jump: the instruction is made of the operand. -/
def jumpItem (make : String → Instruction) (text : List Char) : Option (Item × List Char) :=
  match identifier? (skipSpaces text) with
  | some (target, rest) => some (.instruction (make (String.ofList target)), rest)
  | none => none

/-- A command of the console, which has a default for its prompt. -/
def consoleItem (make : String → Instruction) (default : String) (text : List Char) :
    Item × List Char :=
  match prompt? (skipSpaces text) with
  | some (prompt, rest) => (.instruction (make (String.ofList prompt)), rest)
  | none => (.instruction (make default), text)

/-- The operand belongs to its mnemonic only if it stands on the same line. -/
def operandItem (m : Mnemonic) (text : List Char) : Option (Item × List Char) :=
  match m with
  | .add => registerItem .add text
  | .sub => registerItem .sub text
  | .sta => registerItem .store text
  | .lda => registerItem .load text
  | .jmp => jumpItem .jump text
  | .jz => jumpItem .jumpIfZero text
  | .jge => jumpItem .jumpIfNonNegative text
  | .hlt => some (.instruction .halt, text)
  | .inp => some (consoleItem .input Instruction.defaultInputPrompt text)
  | .out => some (consoleItem .output Instruction.defaultOutputPrompt text)

def command? (behindWord : Bool) (text : List Char) : Option (Item × List Char) :=
  match mnemonic? behindWord text with
  | some (m, rest) => operandItem m rest
  | none => none

/-- The item at the start of a text that starts with neither a space nor a line end, and what
follows it. -/
def nextItem (behindWord : Bool) (text : List Char) : Item × List Char :=
  match comment? text with
  | some rest => (.comment, rest)
  | none =>
      match label? text with
      | some (name, rest) => (.instruction (.label (String.ofList name)), rest)
      | none =>
          match command? behindWord text with
          | some taken => taken
          | none => (.unknown text, restOfLine text)

/-- An item that may end in a character of a word. Behind all others no such character stands. -/
def Item.endsInWord : Item → Bool
  | .instruction i => i.target?.isSome
  | _ => false

theorem length_of_comment? {text rest : List Char} (h : comment? text = some rest) :
    rest.length < text.length := by
  unfold comment? at h
  split at h
  · rename_i tail
    cases h
    have := length_restOfLine_le tail
    simp only [List.length_cons]
    omega
  · contradiction

theorem length_of_label? {text name rest : List Char} (h : label? text = some (name, rest)) :
    rest.length < text.length := by
  unfold label? at h
  split at h
  · contradiction
  · rename_i after hname
    have hlength := length_of_identifier? hname
    have hdrop := (List.dropWhile_sublist isSpacing (l := after)).length_le
    split at h
    · rename_i hcolon
      cases h
      rw [hcolon, List.length_cons] at hdrop
      omega
    · contradiction

theorem length_of_register? {text rest : List Char} {n : Except Numeral.Overlong Nat}
    (h : register? text = some (n, rest)) : rest.length ≤ text.length := by
  unfold register? at h
  dsimp only at h
  split at h
  · contradiction
  · cases h
    exact (List.dropWhile_sublist _).length_le

theorem length_of_registerItem {make : Value → Instruction} {text rest : List Char} {item : Item}
    (h : registerItem make text = some (item, rest)) : rest.length ≤ text.length := by
  have hspaces := length_skipSpaces_le text
  unfold registerItem at h
  split at h
  · rename_i hregister
    cases h
    exact Nat.le_trans (length_of_register? hregister) hspaces
  · rename_i hregister
    cases h
    exact Nat.le_trans (length_of_register? hregister) hspaces
  · contradiction

theorem length_of_jumpItem {make : String → Instruction} {text rest : List Char} {item : Item}
    (h : jumpItem make text = some (item, rest)) : rest.length ≤ text.length := by
  have hspaces := length_skipSpaces_le text
  unfold jumpItem at h
  split at h
  · rename_i hname
    cases h
    exact Nat.le_trans (Nat.le_of_lt (length_of_identifier? hname)) hspaces
  · contradiction

theorem length_consoleItem_le (make : String → Instruction) (default : String)
    (text : List Char) : (consoleItem make default text).2.length ≤ text.length := by
  have hspaces := length_skipSpaces_le text
  unfold consoleItem
  split
  · rename_i hprompt
    exact Nat.le_trans (Nat.le_of_lt (length_of_prompt? hprompt)) hspaces
  · exact Nat.le_refl _

theorem length_of_operandItem {m : Mnemonic} {text rest : List Char} {item : Item}
    (h : operandItem m text = some (item, rest)) : rest.length ≤ text.length := by
  cases m
  case add | sub | sta | lda => exact length_of_registerItem h
  case jmp | jz | jge => exact length_of_jumpItem h
  case hlt =>
    cases h
    exact Nat.le_refl _
  case inp | out =>
    rw [operandItem, Option.some_inj] at h
    rw [show rest = (item, rest).2 from rfl, ← h]
    exact length_consoleItem_le _ _ _

theorem length_of_command? {behindWord : Bool} {text rest : List Char} {item : Item}
    (h : command? behindWord text = some (item, rest)) : rest.length < text.length := by
  unfold command? at h
  split at h
  · rename_i hmnemonic
    exact Nat.lt_of_le_of_lt (length_of_operandItem h) (length_of_mnemonic? hmnemonic)
  · contradiction

theorem length_nextItem_lt (behindWord : Bool) {c : Char} {text : List Char} (hc : c ≠ '\n') :
    (nextItem behindWord (c :: text)).2.length < (c :: text).length := by
  unfold nextItem
  split
  · rename_i hcomment
    exact length_of_comment? hcomment
  · split
    · rename_i hlabel
      exact length_of_label? hlabel
    · split
      · rename_i taken hcommand
        exact length_of_command? hcommand
      · have hc' : (c != '\n') = true := bne_iff_ne.mpr hc
        simp only [restOfLine, List.dropWhile_cons, hc', if_true, List.length_cons]
        exact Nat.lt_succ_of_le (List.dropWhile_sublist _).length_le

/-- The items of a text that stands directly behind a word, or not, behind the items read already,
which are in reverse. -/
def itemsOnto (done : List Item) (behindWord : Bool) (text : List Char) : List Item :=
  match text with
  | [] => done.reverse
  | c :: rest =>
      if _h : isSpacing c then itemsOnto done false rest
      else
        let taken := nextItem behindWord (c :: rest)
        itemsOnto (taken.1 :: done) taken.1.endsInWord taken.2
termination_by text.length
decreasing_by
  · simp
  · apply length_nextItem_lt
    intro hc
    subst hc
    contradiction

def items (text : List Char) : List Item := itemsOnto [] false text

end Accumulator.Assembly
