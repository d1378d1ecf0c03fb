/-
# Patterns of file names

A pattern is a path in which parts may have wildcards: `?` stands for one
character, `*` for any number, `[…]` for one of a class (`[!…]` for one that is
not), and a part `**` for any number of directories. `Glob.tokens` reads the
tokens of a pattern; the whole pattern is read first, then each of its parts by
itself, and the first error of either is the error of the pattern.

Key definitions: `Glob.Token`, `Glob.Error`, `Glob.tokens`, `Glob.Part`,
`Glob.parts`, `Glob.accepts`.
-/
import ApiReference.File.Path

namespace ApiReference
namespace Glob

/-- A member of a class: a character or all from one to another. -/
inductive Member where
  | one (c : Char)
  | range (first last : Char)
  deriving DecidableEq, Repr

/-- A token of a pattern. -/
inductive Token where
  | char (c : Char)
  | anyChar
  | anyText
  | anyDirectories
  | within (members : List Member)
  | except (members : List Member)
  deriving DecidableEq, Repr

/-- Why a text is no pattern. -/
inductive Cause where
  | stars
  | partialStars
  | badClass
  deriving DecidableEq, Repr

/-- Why a text is no pattern, and after how many characters. -/
structure Error where
  cause : Cause
  position : Nat
  deriving DecidableEq, Repr

namespace Cause

/-- The wording of a cause. -/
def message : Cause → String
  | stars => "wildcards are either regular `*` or recursive `**`"
  | partialStars => "recursive wildcards must form a single path component"
  | badClass => "invalid range pattern"

end Cause

/-- The wording of an error. -/
def Error.message (e : Error) : String :=
  "Pattern syntax error near position " ++ toString e.position ++ ": " ++ e.cause.message

/-- The text has a character that makes it a pattern. -/
def isPattern (text : String) : Bool := text.toList.any fun c => c = '*' || c = '?' || c = '['

/-! ### Reading tokens -/

/-- The members of a class. -/
def members : List Char → List Member
  | a :: '-' :: b :: rest => .range a b :: members rest
  | a :: rest => .one a :: members rest
  | [] => []

/-- The characters before the first closing bracket, and those behind it. -/
def untilBracket : List Char → Option (List Char × List Char)
  | [] => none
  | ']' :: rest => some ([], rest)
  | c :: rest => (untilBracket rest).map fun (inside, after) => (c :: inside, after)

/-- The class behind an opening bracket, and the characters behind the class. Its
first character is in it whatever it is. -/
def readClass : List Char → Option (Token × List Char)
  | '!' :: c :: rest => (untilBracket rest).map fun (inside, after) => (.except (members (c :: inside)), after)
  | '!' :: [] => none
  | c :: rest => (untilBracket rest).map fun (inside, after) => (.within (members (c :: inside)), after)
  | [] => none

theorem untilBracket_length {cs inside after : List Char}
    (h : untilBracket cs = some (inside, after)) : after.length < cs.length := by
  induction cs generalizing inside with
  | nil => simp [untilBracket] at h
  | cons c cs ih =>
    by_cases hc : c = ']'
    · subst hc
      simp only [untilBracket, Option.some.injEq, Prod.mk.injEq] at h
      simp [h.2]
    · simp only [untilBracket, Option.map_eq_some_iff, Prod.mk.injEq] at h
      obtain ⟨⟨i, a⟩, hi, _, rfl⟩ := h
      simpa using Nat.lt_succ_of_lt (ih hi)

theorem readClass_length {cs after : List Char} {token : Token}
    (h : readClass cs = some (token, after)) : after.length < cs.length := by
  unfold readClass at h
  split at h
  · obtain ⟨⟨i, a⟩, hi, he⟩ := Option.map_eq_some_iff.1 h
    obtain ⟨-, rfl⟩ := Prod.mk.inj he
    have := untilBracket_length hi
    simp only [List.length_cons]
    omega
  · simp at h
  · obtain ⟨⟨i, a⟩, hi, he⟩ := Option.map_eq_some_iff.1 h
    obtain ⟨-, rfl⟩ := Prod.mk.inj he
    have := untilBracket_length hi
    simp only [List.length_cons]
    omega
  · simp at h

/-- A part may begin behind these characters, the last of which is `before`. -/
def beginsPart (before : Option Char) : Bool := before = none || before = some '/'

/-- The tokens of a text that comes after `position` characters, the last of
which is `before`. -/
def tokensAfter (before : Option Char) (position : Nat) : List Char → Except Error (List Token)
  | [] => .ok []
  | '*' :: '*' :: '*' :: _ => .error ⟨.stars, position + 2⟩
  | '*' :: '*' :: rest =>
    if !beginsPart before then .error ⟨.partialStars, position - 1⟩
    else
      match rest with
      | [] => .ok [.anyDirectories]
      | '/' :: after => (.anyDirectories :: ·) <$> tokensAfter (some '/') (position + 3) after
      | _ :: _ => .error ⟨.partialStars, position + 2⟩
  | '*' :: rest => (.anyText :: ·) <$> tokensAfter (some '*') (position + 1) rest
  | '?' :: rest => (.anyChar :: ·) <$> tokensAfter (some '?') (position + 1) rest
  | '[' :: rest =>
    match h : readClass rest with
    | none => .error ⟨.badClass, position⟩
    | some (token, after) =>
      have := readClass_length h
      (token :: ·) <$> tokensAfter (some ']') (position + (rest.length + 1 - after.length)) after
  | c :: rest => (.char c :: ·) <$> tokensAfter (some c) (position + 1) rest
termination_by cs => cs.length

/-- The tokens of a text. -/
def tokens (text : String) : Except Error (List Token) := tokensAfter none 0 text.toList

/-! ### The parts of a pattern -/

/-- A part of a pattern: a name without wildcards, any directories, or tokens. -/
inductive Part where
  | name (text : String)
  | anyDirectories
  | wild (tokens : List Token)
  deriving DecidableEq, Repr

/-- The characters of tokens that are characters only. -/
def literal? : List Token → Option (List Char)
  | [] => some []
  | .char c :: rest => (literal? rest).map (c :: ·)
  | _ :: _ => none

/-- The part that tokens make up. -/
def Part.ofTokens (tokens : List Token) : Part :=
  match literal? tokens with
  | some cs => .name (String.ofList cs)
  | none => if tokens = [.anyDirectories] then .anyDirectories else .wild tokens

/-- The texts of the parts, what is behind a slash at the end left out. -/
def partTexts (text : String) : List String :=
  let chars := text.toList
  let relative := if chars.head? = some '/' then chars.tail else chars
  let parts := (Path.splitSlashes relative).map String.ofList
  if parts.getLast? = some "" then parts.dropLast else parts

/-- The parts of a pattern below its root or the working directory. -/
def parts (text : String) : Except Error (List Part) := do
  let _ ← tokens text
  (partTexts text).mapM fun part => Part.ofTokens <$> tokens part

/-! ### Matching a name -/

/-- A character is a member of a class. -/
def Member.has : Member → Char → Bool
  | one a, c => c = a
  | range a b, c => a ≤ c && c ≤ b

/-- A character stands for a token that is not any text. -/
def Token.admits : Token → Char → Bool
  | char a, c => c = a
  | anyChar, _ => true
  | within members, c => members.any (·.has c)
  | except members, c => !members.any (·.has c)
  | anyText, _ | anyDirectories, _ => false

/-- What is left of a list from any place on. -/
def suffixes {α : Type} : List α → List (List α)
  | [] => [[]]
  | x :: xs => (x :: xs) :: suffixes xs

/-- Tokens match all of a name. -/
def accepts : List Token → List Char → Bool
  | [], cs => cs.isEmpty
  | .anyText :: rest, cs | .anyDirectories :: rest, cs => (suffixes cs).any (accepts rest)
  | token :: rest, c :: cs => token.admits c && accepts rest cs
  | _ :: _, [] => false

end Glob
end ApiReference
