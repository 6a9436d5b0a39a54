import Accumulator.Text.Alphanumeric

/-!
Mnemonics and identifiers. A mnemonic may be written in any mixture of cases. It is a word of its
own: no letter, digit, underscore or dollar sign stands before or behind it. Letters are compared in
upper case, and the dotless i and the long s have upper-case forms among the ASCII letters.
-/

set_option autoImplicit false
set_option relaxedAutoImplicit false

namespace Accumulator.Assembly

/-- What skips over from one statement to the next. -/
def isSpacing (c : Char) : Bool := c == ' ' || c == '\n' || c == '\r'

def isIdentifierStart (c : Char) : Bool := c.isAlpha || c == '_'

def isIdentifierPart (c : Char) : Bool := c.isAlphanum || c == '_'

/-- The longest identifier at the start of a text, and what follows it. -/
def identifier? : List Char → Option (List Char × List Char)
  | [] => none
  | c :: rest =>
      if isIdentifierStart c then
        some (c :: rest.takeWhile isIdentifierPart, rest.dropWhile isIdentifierPart)
      else none

theorem length_of_identifier? {text name rest : List Char}
    (h : identifier? text = some (name, rest)) : rest.length < text.length := by
  unfold identifier? at h
  split at h
  · contradiction
  · rename_i c tail
    split at h
    · cases h
      exact Nat.lt_succ_of_le (List.dropWhile_sublist _).length_le
    · contradiction

/-- The ASCII upper-case form of a character, if it has one. -/
def upperCase (c : Char) : Char :=
  if c == 'ı' then 'I' else if c == 'ſ' then 'S' else c.toUpper

/-- A character that would continue a mnemonic. -/
def continuesMnemonic (c : Char) : Bool :=
  let c := upperCase c
  c.isAlphanum || c == '_' || c == '$'

inductive Mnemonic where
  | add
  | sub
  | sta
  | lda
  | jmp
  | jz
  | jge
  | hlt
  | inp
  | out
  deriving DecidableEq, Repr

namespace Mnemonic

def all : List Mnemonic := [.add, .sub, .sta, .lda, .jmp, .jz, .jge, .hlt, .inp, .out]

theorem mem_all (m : Mnemonic) : m ∈ all := by
  cases m <;> decide

/-- The upper-case spelling. -/
def spelling : Mnemonic → List Char
  | .add => ['A', 'D', 'D']
  | .sub => ['S', 'U', 'B']
  | .sta => ['S', 'T', 'A']
  | .lda => ['L', 'D', 'A']
  | .jmp => ['J', 'M', 'P']
  | .jz => ['J', 'Z']
  | .jge => ['J', 'G', 'E']
  | .hlt => ['H', 'L', 'T']
  | .inp => ['I', 'N']
  | .out => ['O', 'U', 'T']

theorem spelling_ne_nil (m : Mnemonic) : m.spelling ≠ [] := by
  cases m <;> simp [spelling]

end Mnemonic

/-- What follows a spelling at the start of a text. -/
def afterSpelling? : List Char → List Char → Option (List Char)
  | [], text => some text
  | _ :: _, [] => none
  | s :: spelling, c :: text => if upperCase c == s then afterSpelling? spelling text else none

theorem length_of_afterSpelling? {spelling text rest : List Char}
    (h : afterSpelling? spelling text = some rest) :
    rest.length + spelling.length = text.length := by
  induction spelling generalizing text with
  | nil =>
    cases h
    rfl
  | cons s spelling ih =>
    cases text with
    | nil => contradiction
    | cons c text =>
      unfold afterSpelling? at h
      split at h
      · have := ih h
        simp only [List.length_cons]
        omega
      · contradiction

/-- The mnemonic at the start of a text, and what follows it. Directly behind a word there is
none. -/
def mnemonic? (behindWord : Bool) (text : List Char) : Option (Mnemonic × List Char) :=
  if behindWord then none
  else
    Mnemonic.all.findSome? fun m ↦ do
      let rest ← afterSpelling? m.spelling text
      if rest.head?.any continuesMnemonic then none else some (m, rest)

theorem length_of_mnemonic? {behindWord : Bool} {text rest : List Char} {m : Mnemonic}
    (h : mnemonic? behindWord text = some (m, rest)) : rest.length < text.length := by
  unfold mnemonic? at h
  split at h
  · contradiction
  · obtain ⟨m', -, hm⟩ := List.exists_of_findSome?_eq_some h
    cases hrest : afterSpelling? m'.spelling text with
    | none => simp [hrest] at hm
    | some rest' =>
      have hlength := length_of_afterSpelling? hrest
      have hpos := List.length_pos_iff.mpr (Mnemonic.spelling_ne_nil m')
      simp only [hrest, Option.bind_eq_bind, Option.bind_some] at hm
      split at hm
      · contradiction
      · cases hm
        omega

end Accumulator.Assembly
