import Accumulator.Assembly.SourceUnit
import Accumulator.Proofs.Tabs

/-!
The grammar of source texts, as they are written: tabs are still tabs, and a place in a text is what
stands before it and what comes from there on. A scan (`Scan`) goes through a text from left to
right. It skips spaces and line ends and then takes the first that applies of a comment, a label and
a command (`Takes`); where none applies it notes the line, and resumes at the end of that line. What
it comes upon are the pieces of the text.
-/

set_option autoImplicit false
set_option relaxedAutoImplicit false

namespace Accumulator.Assembly

/-- What a scan comes upon. -/
inductive Piece where
  | comment
  | instruction (i : Instruction)
  /-- A command whose register number has too many digits. -/
  | overlong (cause : Numeral.Overlong)
  /-- Something unknown: the number of its line, and that line from there on. -/
  | unknown (line : Nat) (command : List Char)
  deriving DecidableEq, Repr

namespace Piece

def instruction? : Piece → Option Instruction
  | .instruction i => some i
  | _ => none

def overlong? : Piece → Option Numeral.Overlong
  | .overlong cause => some cause
  | _ => none

def unknown? : Piece → Option (Nat × List Char)
  | .unknown line command => some (line, command)
  | _ => none

/-- The item that a recogniser reads for a piece. -/
def item : Piece → Item
  | .comment => .comment
  | .instruction i => .instruction i
  | .overlong cause => .overlong cause
  | .unknown _ command => .unknown command

end Piece

/-! ### Parts of statements -/

/-- What may stand between statements. -/
def isSpace (c : Char) : Bool := c == ' ' || c == '\t' || c == '\r' || c == '\n'

/-- What may stand between a mnemonic and its operand. -/
def isInlineSpace (c : Char) : Bool := c == ' ' || c == '\t'

def IsIdentifier (name : List Char) : Prop :=
  ∃ first others, name = first :: others ∧ isIdentifierStart first = true ∧
    ∀ c ∈ others, isIdentifierPart c = true

/-- A mnemonic in any mixture of cases. -/
def IsSpelled (m : Mnemonic) (word : List Char) : Prop := word.map upperCase = m.spelling

/-- What may stand between the quotes of a prompt. -/
inductive IsQuotable : List Char → Prop
  | nil : IsQuotable []
  | plain {c : Char} {rest : List Char}
      (hc : c ≠ '"' ∧ c ≠ '\\' ∧ c ≠ '\n' ∧ c ≠ '\r') (hrest : IsQuotable rest) :
      IsQuotable (c :: rest)
  | escaped {c : Char} {rest : List Char} (hc : c ≠ '\n') (hrest : IsQuotable rest) :
      IsQuotable ('\\' :: c :: rest)

def IsQuoted (lexeme : List Char) : Prop :=
  ∃ body, lexeme = '"' :: (body ++ ['"']) ∧ IsQuotable body

/-! ### Comments, labels, commands -/

/-- A comment, given what follows it. -/
def IsComment (lexeme rest : List Char) : Prop :=
  ∃ remark, lexeme = '/' :: '/' :: remark ∧ '\n' ∉ remark ∧
    rest.head?.all (· == '\n') = true

def IsLabel (name lexeme : List Char) : Prop :=
  ∃ gap, lexeme = name ++ (gap ++ [':']) ∧ IsIdentifier name ∧ ∀ c ∈ gap, isSpace c = true

/-- The sorts of commands, by their operands. -/
inductive Form where
  | register (make : Value → Instruction)
  | target (make : String → Instruction)
  | prompt (make : String → Instruction) (default : String)
  | plain (i : Instruction)

def Mnemonic.form : Mnemonic → Form
  | .add => .register .add
  | .sub => .register .sub
  | .sta => .register .store
  | .lda => .register .load
  | .jmp => .target .jump
  | .jz => .target .jumpIfZero
  | .jge => .target .jumpIfNonNegative
  | .hlt => .plain .halt
  | .inp => .prompt .input Instruction.defaultInputPrompt
  | .out => .prompt .output Instruction.defaultOutputPrompt

/-- What a command on the register of that number comes to. -/
def registerPiece (make : Value → Instruction) (digits : List Char) : Piece :=
  match Numeral.read digits with
  | .ok index => .instruction (make (.int index))
  | .error cause => .overlong cause

/-- A prompt stands there, perhaps behind some space. -/
def StartsPrompt (text : List Char) : Prop :=
  ∃ gap lexeme rest, text = gap ++ (lexeme ++ rest) ∧ (∀ c ∈ gap, isInlineSpace c = true) ∧
    IsQuoted lexeme

/-- The operand of a command, given the column at which it begins and what follows it. -/
inductive IsOperand (column : Nat) : Form → List Char → List Char → Piece → Prop
  | register {make : Value → Instruction} {gap digits rest : List Char}
      (hgap : ∀ c ∈ gap, isInlineSpace c = true) (hne : digits ≠ [])
      (hdigits : ∀ c ∈ digits, Numeral.isDigit c = true)
      (hend : rest.head?.any Text.isWord = false) :
      IsOperand column (.register make) (gap ++ digits) rest (registerPiece make digits)
  | target {make : String → Instruction} {gap name rest : List Char}
      (hgap : ∀ c ∈ gap, isInlineSpace c = true) (hname : IsIdentifier name)
      (hend : rest.head?.any isIdentifierPart = false) :
      IsOperand column (.target make) (gap ++ name) rest
        (.instruction (make (String.ofList name)))
  /-- The quoted text means what it would mean by itself. -/
  | prompt {make : String → Instruction} {default : String} {gap lexeme content rest : List Char}
      (hgap : ∀ c ∈ gap, isInlineSpace c = true) (hquoted : IsQuoted lexeme)
      (hcontent : prompt? (Text.expanded (Text.columnAfter column gap) lexeme) =
        some (content, [])) :
      IsOperand column (.prompt make default) (gap ++ lexeme) rest
        (.instruction (make (String.ofList content)))
  | noPrompt {make : String → Instruction} {default : String} {rest : List Char}
      (hnone : ¬ StartsPrompt rest) :
      IsOperand column (.prompt make default) [] rest (.instruction (make default))
  | plain {i : Instruction} {rest : List Char} :
      IsOperand column (.plain i) [] rest (.instruction i)

/-- A command at a place, given what follows it. -/
inductive IsCommand (before : List Char) : List Char → List Char → Piece → Prop
  | intro {m : Mnemonic} {word operand rest : List Char} {piece : Piece}
      (hword : IsSpelled m word)
      (hbehind : before.getLast?.any continuesMnemonic = false)
      (hend : (operand ++ rest).head?.any continuesMnemonic = false)
      (hoperand : IsOperand (Text.columnAfter 0 (before ++ word)) m.form operand rest piece) :
      IsCommand before (word ++ operand) rest piece

/-! ### Scans -/

def StartsComment (text : List Char) : Prop :=
  ∃ lexeme rest, text = lexeme ++ rest ∧ IsComment lexeme rest

def StartsLabel (text : List Char) : Prop :=
  ∃ name lexeme rest, text = lexeme ++ rest ∧ IsLabel name lexeme

/-- The first that applies at a place, given what follows it. -/
inductive Takes (before : List Char) : List Char → List Char → Piece → Prop
  | comment {lexeme rest : List Char} (h : IsComment lexeme rest) :
      Takes before lexeme rest .comment
  | label {name lexeme rest : List Char} (hcomment : ¬ StartsComment (lexeme ++ rest))
      (h : IsLabel name lexeme) :
      Takes before lexeme rest (.instruction (.label (String.ofList name)))
  | command {lexeme rest : List Char} {piece : Piece}
      (hcomment : ¬ StartsComment (lexeme ++ rest)) (hlabel : ¬ StartsLabel (lexeme ++ rest))
      (h : IsCommand before lexeme rest piece) : Takes before lexeme rest piece

/-- The scan of a text from a place on, and the pieces it comes upon. -/
inductive Scan : List Char → List Char → List Piece → Prop
  | done {before : List Char} : Scan before [] []
  | skip {before rest : List Char} {c : Char} {pieces : List Piece} (hc : isSpace c = true)
      (hrest : Scan (before ++ [c]) rest pieces) : Scan before (c :: rest) pieces
  | take {before lexeme rest : List Char} {piece : Piece} {pieces : List Piece}
      (hhead : (lexeme ++ rest).head?.all isSpace = false) (h : Takes before lexeme rest piece)
      (hrest : Scan (before ++ lexeme) rest pieces) :
      Scan before (lexeme ++ rest) (piece :: pieces)
  | resume {before line rest : List Char} {pieces : List Piece}
      (hhead : (line ++ rest).head?.all isSpace = false)
      (hnone : ∀ lexeme after piece, line ++ rest = lexeme ++ after →
        ¬ Takes before lexeme after piece)
      (hline : '\n' ∉ line) (hend : rest.head?.all (· == '\n') = true)
      (hrest : Scan (before ++ line) rest pieces) :
      Scan before (line ++ rest)
        (.unknown (1 + before.count '\n') (Text.expanded (Text.columnAfter 0 before) line) ::
          pieces)

end Accumulator.Assembly
