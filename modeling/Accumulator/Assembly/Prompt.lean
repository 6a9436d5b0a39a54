import Accumulator.Text.Hexadecimal

/-!
Quoted prompts. A prompt stands between double quotes on one line; a backslash begins an escape and
may hide a quote or a carriage return, but no line feed.

Escapes stand for one character each, with one exception. The letters `t`, `n`, `f`, `r` stand for
controls and `0` for NUL; `x` and `u` take one hexadecimal digit, which a `2` or a `4` must follow,
and stand for the character with these two digits as its code; every other character stands for
itself. The exception is an octal digit followed by a `3`, which stands for the two of them.
-/

set_option autoImplicit false
set_option relaxedAutoImplicit false

namespace Accumulator.Assembly

open Text (hexDigit?)

/-- A hexadecimal digit before the given second digit, as the character they are the code of, and
what follows. -/
def coded? (second : Char) : List Char → Option (Char × List Char)
  | first :: c :: rest =>
      if c == second then
        (hexDigit? first).map fun high ↦ (Char.ofNat (16 * high + (second.toNat - '0'.toNat)), rest)
      else none
  | _ => none

/-- What an escape stands for, and what follows it; the backslash is gone already. -/
def escape? : List Char → Option (List Char × List Char)
  | [] => none
  | '\n' :: _ => none
  | 't' :: rest => some (['\t'], rest)
  | 'n' :: rest => some (['\n'], rest)
  | 'f' :: rest => some (['\x0c'], rest)
  | 'r' :: rest => some (['\r'], rest)
  | 'x' :: rest =>
      match coded? '2' rest with
      | some (c, rest) => some ([c], rest)
      | none => some (['x'], rest)
  | 'u' :: rest =>
      match coded? '4' rest with
      | some (c, rest) => some ([c], rest)
      | none => some (['u'], rest)
  | c :: '3' :: rest =>
      if '0' ≤ c ∧ c ≤ '7' then some ([c, '3'], rest) else some ([c], '3' :: rest)
  | '0' :: rest => some (['\x00'], rest)
  | c :: rest => some ([c], rest)

theorem length_of_coded? {second c : Char} {text rest : List Char}
    (h : coded? second text = some (c, rest)) : rest.length < text.length := by
  unfold coded? at h
  split at h
  · split at h
    · obtain ⟨high, -, heq⟩ := Option.map_eq_some_iff.mp h
      cases heq
      simp only [List.length_cons]
      omega
    · contradiction
  · contradiction

theorem length_of_escape? {text content rest : List Char}
    (h : escape? text = some (content, rest)) : rest.length < text.length := by
  unfold escape? at h
  split at h
  all_goals try contradiction
  all_goals try (cases h; simp)
  · split at h
    · rename_i hcoded
      have := length_of_coded? hcoded
      cases h
      simp only [List.length_cons]
      omega
    · cases h
      simp
  · split at h
    · rename_i hcoded
      have := length_of_coded? hcoded
      cases h
      simp only [List.length_cons]
      omega
    · cases h
      simp
  · split at h <;> cases h <;> simp only [List.length_cons] <;> omega

/-- The content up to the closing quote, behind what is read already, in reverse, and what follows
the quote. -/
def promptContent? (done text : List Char) : Option (List Char × List Char) :=
  match text with
  | [] => none
  | '"' :: rest => some (done.reverse, rest)
  | '\\' :: rest =>
      match _h : escape? rest with
      | none => none
      | some (content, after) => promptContent? (content.reverse ++ done) after
  | c :: rest => if c == '\n' || c == '\r' then none else promptContent? (c :: done) rest
termination_by text.length
decreasing_by
  · have := length_of_escape? ‹_›
    simp only [List.length_cons]
    omega
  · simp

theorem length_of_promptContent? {done text content rest : List Char}
    (h : promptContent? done text = some (content, rest)) : rest.length < text.length := by
  fun_induction promptContent? done text with
  | case1 => contradiction
  | case2 =>
    cases h
    simp
  | case3 => contradiction
  | case4 done rest' content' after hescape ih =>
    have hafter := length_of_escape? hescape
    have := ih h
    simp only [List.length_cons]
    omega
  | case5 => contradiction
  | case6 done c rest' _ _ _ ih =>
    have := ih h
    simp only [List.length_cons]
    omega

/-- The quoted prompt at the start of a text, and what follows it. -/
def prompt? : List Char → Option (List Char × List Char)
  | '"' :: rest => promptContent? [] rest
  | _ => none

theorem length_of_prompt? {text content rest : List Char}
    (h : prompt? text = some (content, rest)) : rest.length < text.length := by
  unfold prompt? at h
  split at h
  · have := length_of_promptContent? h
    simp only [List.length_cons]
    omega
  · contradiction

end Accumulator.Assembly
