/-
BlockHooks/Json/Skipping.lean

Skipping a JSON value that nobody asks for.

What is skipped may be of any depth, so the open brackets are kept in a
list, the innermost first, and the text is gone through once.  Every step
takes at least one character, which is why the walk ends
(`length_of_skipScalar`, `Bracket.length_of_skipLabel`).
-/
import BlockHooks.Json.Lexeme

namespace BlockHooks

namespace Json

/-- What holds other values. -/
inductive Bracket where
  | array
  | object
  deriving DecidableEq, Repr

namespace Bracket

/-- The bracket that a character opens. -/
def ofOpening? : Char → Option Bracket
  | '[' => some .array
  | '{' => some .object
  | _ => none

/-- The character that closes a bracket. -/
def closing : Bracket → Char
  | .array => ']'
  | .object => '}'

/-- Skips what stands before a value: in an object a key and its colon, in
an array nothing. -/
def skipLabel : Bracket → List Char → Except JsonError (List Char)
  | .array, cs => .ok cs
  | .object, cs =>
    match dropBlanks cs with
    | '"' :: cs =>
      match stringBody true cs with
      | .error e => .error e
      | .ok (_, cs) =>
        match dropBlanks cs with
        | ':' :: cs => .ok cs
        | cs => .error (unexpectedAt cs)
    | cs => .error (unexpectedAt cs)

theorem length_of_skipLabel {b : Bracket} {cs rest : List Char}
    (h : b.skipLabel cs = .ok rest) : rest.length ≤ cs.length := by
  unfold skipLabel at h
  split at h
  next => cases h; exact Nat.le_refl _
  next =>
    split at h
    next hq =>
      split at h
      next => cases h
      next hs =>
        split at h
        next hc =>
          cases h
          have := length_of_dropBlanks hq
          have := length_of_stringBody hs
          have := length_of_dropBlanks hc
          omega
        next => cases h
    next => cases h

end Bracket

/-- Skips a value that holds no others. -/
def skipScalar : List Char → Except JsonError (List Char)
  | [] => .error .truncated
  | c :: cs =>
    if c = '"' then (stringBody true cs).map (·.2)
    else if c = 'n' then word ['u', 'l', 'l'] cs
    else if c = 't' then word ['r', 'u', 'e'] cs
    else if c = 'f' then word ['a', 'l', 's', 'e'] cs
    else if c = '-' then (numeral true cs).map (·.2)
    else if c.isDigit then (numeral true (c :: cs)).map (·.2)
    else .error .malformed

theorem length_of_skipScalar {cs rest : List Char} (h : skipScalar cs = .ok rest) :
    rest.length < cs.length := by
  have ofMap {α : Type} {r : Except JsonError (α × List Char)}
      (hr : r.map (·.2) = .ok rest) : ∃ a, r = .ok (a, rest) := by
    cases r with
    | error e => cases hr
    | ok p => cases hr; exact ⟨p.1, rfl⟩
  revert h
  fun_cases skipScalar cs with
  | case1 => intro h; cases h
  | case2 cs =>
    intro h
    obtain ⟨_, hs⟩ := ofMap h
    exact Nat.lt_succ_of_lt (length_of_stringBody hs)
  | case3 cs => exact fun h => Nat.lt_succ_of_le (length_of_word h)
  | case4 cs => exact fun h => Nat.lt_succ_of_le (length_of_word h)
  | case5 cs => exact fun h => Nat.lt_succ_of_le (length_of_word h)
  | case6 cs =>
    intro h
    obtain ⟨_, hn⟩ := ofMap h
    exact Nat.lt_succ_of_lt (length_of_numeral hn)
  | case7 c cs =>
    intro h
    obtain ⟨_, hn⟩ := ofMap h
    exact length_of_numeral hn
  | case8 => intro h; cases h

/-- Where the walk through a skipped value stands. -/
inductive Waypoint where
  /-- A value has to follow. -/
  | beforeValue
  /-- A value has just ended. -/
  | afterValue

/-- Skips the text from the waypoint on, up to the end of the outermost of
the open brackets. -/
def skipFrom : Waypoint → List Bracket → List Char → Except JsonError (List Char)
  | .afterValue, [], cs => .ok cs
  | .afterValue, b :: bs, cs =>
    match _h₁ : dropBlanks cs with
    | [] => .error .truncated
    | c :: rest =>
      if c = b.closing then skipFrom .afterValue bs rest
      else if c = ',' then
        match _h₂ : b.skipLabel rest with
        | .error e => .error e
        | .ok rest' => skipFrom .beforeValue (b :: bs) rest'
      else .error .malformed
  | .beforeValue, bs, cs =>
    match _h₁ : dropBlanks cs with
    | [] => .error .truncated
    | c :: rest =>
      match Bracket.ofOpening? c with
      | none =>
        match _h₂ : skipScalar (c :: rest) with
        | .error e => .error e
        | .ok rest' => skipFrom .afterValue bs rest'
      | some b =>
        match _h₂ : dropBlanks rest with
        | [] => .error .truncated
        | d :: rest' =>
          if d = b.closing then skipFrom .afterValue bs rest'
          else
            match _h₃ : b.skipLabel (d :: rest') with
            | .error e => .error e
            | .ok rest'' => skipFrom .beforeValue (b :: bs) rest''
  termination_by _ _ cs => cs.length
  decreasing_by
    · exact length_of_dropBlanks _h₁
    · have := length_of_dropBlanks _h₁
      have := Bracket.length_of_skipLabel _h₂
      omega
    · have := length_of_dropBlanks _h₁
      have := length_of_skipScalar _h₂
      rw [List.length_cons] at this
      omega
    · have := length_of_dropBlanks _h₁
      have := length_of_dropBlanks _h₂
      omega
    · have := length_of_dropBlanks _h₁
      have := length_of_dropBlanks _h₂
      have := Bracket.length_of_skipLabel _h₃
      rw [List.length_cons] at this
      omega

/-- Skips one value of any kind. -/
def skip (cs : List Char) : Except JsonError (List Char) := skipFrom .beforeValue [] cs

end Json

end BlockHooks
