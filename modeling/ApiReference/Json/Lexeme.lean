/-
# The lexemes of a JSON text

`Lexeme.scan` cuts a text into brackets, separators, words, strings and numbers,
each with the bytes at which it starts and stops. The scanner is an automaton:
`Scan.step` reads one character, `Scan.finish` the end of the text.

A string or a number can be well formed where it is passed over and still have
no value where it is wanted (a lone surrogate, a number too large); its token
then holds the fault in place of the value. A token that is no token either way
is `broken`, and nothing after it is scanned.

Key definitions: `Token`, `Lexeme`, `StringScan.step`, `NumberScan.step`,
`Scan.step`, `Lexeme.scan`.
-/
import ApiReference.Json.Fault
import ApiReference.Decimal.Numeral

namespace ApiReference
namespace Json

/-- What a lexeme is. -/
inductive Token where
  | openList
  | closeList
  | openObject
  | closeObject
  | comma
  | colon
  | null
  | bool (value : Bool)
  | string (kept : Except Fault String)
  | number (kept : Except Fault Number)
  | broken (isString : Bool) (why : Break)

/-- A token and the bytes it takes up, from `start` to just before `stop`. -/
structure Lexeme where
  token : Token
  start : Nat
  stop : Nat

/-! ### Strings -/

/-- Where in an escape the scanner is: in none, behind the backslash, or behind
`\u`, which ends at byte `start`, with the characters since, last first. -/
inductive Escape where
  | none
  | letter
  | hex (start : Nat) (digits : List Char)

/-- A string as far as it is scanned: its characters, last first, a leading
surrogate that waits for its trailing one, and the first reason why the string
has no value. -/
structure StringScan where
  escape : Escape
  text : List Char
  high : Option Nat
  fault : Option Fault

/-- How scanning goes on after one character. -/
inductive Progress (α : Type) where
  | more (state : α)
  | closed (state : α)
  | broken (why : Break)

/-- The value of a hexadecimal digit. -/
def hexDigit? (c : Char) : Option Nat :=
  if '0' ≤ c ∧ c ≤ '9' then some (c.toNat - '0'.toNat)
  else if 'a' ≤ c ∧ c ≤ 'f' then some (c.toNat - 'a'.toNat + 10)
  else if 'A' ≤ c ∧ c ≤ 'F' then some (c.toNat - 'A'.toNat + 10)
  else none

/-- The number of exactly four hexadecimal digits, the last digit first. -/
def hexUnit? : List Char → Option Nat
  | [d, c, b, a] => do
    let a ← hexDigit? a
    let b ← hexDigit? b
    let c ← hexDigit? c
    let d ← hexDigit? d
    pure (((a * 16 + b) * 16 + c) * 16 + d)
  | _ => none

/-- The first of a surrogate pair. -/
def isLeading (unit : Nat) : Bool := 0xD800 ≤ unit && unit < 0xDC00

/-- The second of a surrogate pair. -/
def isTrailing (unit : Nat) : Bool := 0xDC00 ≤ unit && unit < 0xE000

/-- The character of a surrogate pair. -/
def pairedChar (high low : Nat) : Char :=
  Char.ofNat (0x10000 + (high - 0xD800) * 0x400 + (low - 0xDC00))

/-- The character of a backslash and a letter. -/
def escaped? : Char → Option Char
  | '"' => some '"'
  | '\\' => some '\\'
  | '/' => some '/'
  | 'b' => some '\x08'
  | 'f' => some '\x0c'
  | 'n' => some '\n'
  | 'r' => some '\r'
  | 't' => some '\t'
  | _ => none

namespace StringScan

/-- A string of which only the quote is read. -/
def empty : StringScan := ⟨.none, [], none, none⟩

/-- Note a reason why the string has no value, unless there is one already. -/
def note (s : StringScan) (cause : Cause) (offset : Nat) : StringScan :=
  { s with fault := s.fault.or (some ⟨cause, offset⟩) }

/-- Where a leading surrogate waits, anything but the escape of a trailing one
is a fault, found one byte on. -/
def expectNoPair (s : StringScan) (offset : Nat) : StringScan :=
  match s.high with
  | none => s
  | some _ => { s.note .unpairedSurrogate offset with high := none }

/-- Take up a character of the string. -/
def push (s : StringScan) (c : Char) : StringScan := { s with escape := .none, text := c :: s.text }

/-- The string breaks off. -/
def stop (s : StringScan) (why : Break) : Break := ⟨s.fault.getD why.kept, why.skipped⟩

/-- Take up a 16-bit unit whose escape ends at byte `offset`. -/
def pushUnit (s : StringScan) (unit offset : Nat) : StringScan :=
  match s.high with
  | some high =>
    if isTrailing unit then { s.push (pairedChar high unit) with high := none }
    else { s.note .loneSurrogate offset with escape := .none, high := none }
  | none =>
    if isTrailing unit then { s.note .loneSurrogate offset with escape := .none }
    else if isLeading unit then { s with escape := .none, high := some unit }
    else s.push (Char.ofNat unit)

/-- Read the character `c` at byte `here`. -/
def step (s : StringScan) (here : Nat) (c : Char) : Progress StringScan :=
  match s.escape with
  | .none =>
    if c = '\\' then .more { s with escape := .letter }
    else
      let s := s.expectNoPair (here + 1)
      if c = '"' then .closed s
      else if c.toNat < 0x20 then
        .broken (s.stop ⟨⟨.controlCharacter, here + 1⟩, ⟨.controlCharacter, here⟩⟩)
      else .more (s.push c)
  | .letter =>
    if c = 'u' then .more { s with escape := .hex (here + 1) [] }
    else
      let s := s.expectNoPair (here + 1)
      match escaped? c with
      | some d => .more (s.push d)
      | none => .broken (s.stop (.both .invalidEscape (here + 1)))
  | .hex start digits =>
    if here + c.utf8Size < start + 4 then .more { s with escape := .hex start (c :: digits) }
    else
      match hexUnit? (c :: digits) with
      | some unit => .more (s.pushUnit unit (start + 4))
      | none => .broken (s.stop (.both .invalidEscape (start + 4)))

/-- The value of a closed string. -/
def value (s : StringScan) : Except Fault String :=
  match s.fault with
  | some fault => .error fault
  | none => .ok (String.ofList s.text.reverse)

end StringScan

/-! ### Numbers -/

/-- What of a number has been read last. -/
inductive NumberScan.Part where
  | sign
  | zero
  | whole
  | point
  | fraction
  | mark
  | markSign
  | power
  deriving DecidableEq

/-- A number as far as it is scanned, its digits last first. -/
structure NumberScan where
  part : NumberScan.Part
  negative : Bool
  whole : List Nat
  fraction : List Nat
  powerNegative : Bool
  power : List Nat

namespace NumberScan

/-- A number that begins with the character `c`. -/
def ofFirst? (c : Char) : Option NumberScan :=
  if c = '-' then some ⟨.sign, true, [], [], false, []⟩
  else if c = '0' then some ⟨.zero, false, [0], [], false, []⟩
  else if c.isDigit then some ⟨.whole, false, [c.toNat - '0'.toNat], [], false, []⟩
  else none

/-- The number may end here. -/
def mayEnd (s : NumberScan) : Bool :=
  match s.part with
  | .zero | .whole | .fraction | .power => true
  | .sign | .point | .mark | .markSign => false

/-- The number goes on with the digit `d`, if a digit may come. -/
def digit? (s : NumberScan) (d : Nat) : Option NumberScan :=
  match s.part with
  | .sign => some { s with part := if d = 0 then .zero else .whole, whole := [d] }
  | .zero => none
  | .whole => some { s with whole := d :: s.whole }
  | .point | .fraction => some { s with part := .fraction, fraction := d :: s.fraction }
  | .mark | .markSign | .power => some { s with part := .power, power := d :: s.power }

/-- The number goes on with the character `c`, which is no digit, if it may come. -/
def other? (s : NumberScan) (c : Char) : Option NumberScan :=
  match s.part with
  | .zero | .whole =>
    if c = '.' then some { s with part := .point }
    else if c = 'e' ∨ c = 'E' then some { s with part := .mark }
    else none
  | .fraction => if c = 'e' ∨ c = 'E' then some { s with part := .mark } else none
  | .mark =>
    if c = '+' then some { s with part := .markSign }
    else if c = '-' then some { s with part := .markSign, powerNegative := true }
    else none
  | .sign | .point | .markSign | .power => none

/-- Read the character `c` at byte `here`. The number is closed before a
character that cannot belong to it; a digit behind a leading zero is refused. -/
def step (s : NumberScan) (here : Nat) (c : Char) : Progress NumberScan :=
  let next := if c.isDigit then s.digit? (c.toNat - '0'.toNat) else s.other? c
  match next with
  | some s => .more s
  | none =>
    if s.mayEnd && !c.isDigit then .closed s else .broken (.both .invalidNumber (here + 1))

/-- The number as it is written. -/
def numeral (s : NumberScan) : Numeral where
  negative := s.negative
  whole := s.whole.reverse
  fraction := s.fraction.reverse
  exponent := if s.power = [] then none else some ⟨s.powerNegative, s.power.reverse⟩

/-- The value of a number that ends at byte `stop`. A number is found to be too
large at its end, or at the digit with which its exponent gets too large. -/
def value (s : NumberScan) (stop : Nat) : Except Fault Number :=
  match s.numeral.value? with
  | some n => .ok n
  | none =>
    let unread := match s.numeral.exponent.bind Numeral.Exponent.overflow? with
      | some k => s.power.length - k
      | none => 0
    .error ⟨.numberTooLarge, stop - unread⟩

end NumberScan

/-! ### The whole text -/

/-- What the scanner is in the middle of. -/
inductive Scan.Mode where
  | between
  | word (token : Token) (start : Nat) (rest : List Char)
  | string (start : Nat) (state : StringScan)
  | number (start : Nat) (state : NumberScan)
  | stopped

/-- The bytes read, what the scanner is in the middle of, and the lexemes so far,
last first. -/
structure Scan where
  offset : Nat
  mode : Scan.Mode
  lexemes : List Lexeme

namespace Scan

/-- Nothing is read. -/
def empty : Scan := ⟨0, .between, []⟩

/-- Add a lexeme and go on between lexemes. -/
def emit (s : Scan) (token : Token) (start stop : Nat) : Scan :=
  { s with mode := .between, lexemes := ⟨token, start, stop⟩ :: s.lexemes }

/-- Add a token that is broken and scan no further. -/
def giveUp (s : Scan) (isString : Bool) (start : Nat) (why : Break) : Scan :=
  { s with mode := .stopped, lexemes := ⟨.broken isString why, start, s.offset⟩ :: s.lexemes }

/-- White space between lexemes. -/
def isBlank (c : Char) : Bool := c = ' ' || c = '\n' || c = '\t' || c = '\r'

/-- The token of a single character. -/
def mark? : Char → Option Token
  | '[' => some .openList
  | ']' => some .closeList
  | '\x7b' => some .openObject
  | '\x7d' => some .closeObject
  | ',' => some .comma
  | ':' => some .colon
  | _ => none

/-- The word that begins with a character, and the characters to come. -/
def word? : Char → Option (Token × List Char)
  | 'n' => some (.null, "ull".toList)
  | 't' => some (.bool true, "rue".toList)
  | 'f' => some (.bool false, "alse".toList)
  | _ => none

/-- Begin a lexeme with the character `c` at byte `s.offset`. -/
def start (s : Scan) (c : Char) : Scan :=
  if isBlank c then s
  else if c = '"' then { s with mode := .string s.offset .empty }
  else
    match mark? c, word? c, NumberScan.ofFirst? c with
    | some token, _, _ => s.emit token s.offset (s.offset + 1)
    | _, some (token, rest), _ => { s with mode := .word token s.offset rest }
    | _, _, some number => { s with mode := .number s.offset number }
    | none, none, none => s.giveUp false s.offset (.both .expectedValue (s.offset + 1))

/-- Read the character `c`, without counting its bytes. -/
def read (s : Scan) (c : Char) : Scan :=
  match s.mode with
  | .between => s.start c
  | .word token start [] => (s.emit token start s.offset).start c
  | .word token start (d :: rest) =>
    if c ≠ d then s.giveUp false start (.both .expectedWord (s.offset + 1))
    else if rest = [] then s.emit token start (s.offset + 1)
    else { s with mode := .word token start rest }
  | .string start state =>
    match state.step s.offset c with
    | .more state => { s with mode := .string start state }
    | .closed state => s.emit (.string state.value) start (s.offset + 1)
    | .broken why => s.giveUp true start why
  | .number start state =>
    match state.step s.offset c with
    | .more state => { s with mode := .number start state }
    | .closed state => (s.emit (.number (state.value s.offset)) start s.offset).start c
    | .broken why => s.giveUp false start why
  | .stopped => s

/-- Read the character `c`. -/
def step (s : Scan) (c : Char) : Scan :=
  let t := s.read c
  { t with offset := s.offset + c.utf8Size }

/-- Read the end of the text. A number that ends too early is told apart from a
wrong one only where its value is wanted. -/
def finish (s : Scan) : Scan :=
  match s.mode with
  | .between | .stopped => s
  | .word _ start _ => s.giveUp false start (.both .endInValue s.offset)
  | .string start state => s.giveUp true start (state.stop (.both .endInString s.offset))
  | .number start state =>
    if state.mayEnd then s.emit (.number (state.value s.offset)) start s.offset
    else s.giveUp false start ⟨⟨.endInValue, s.offset⟩, ⟨.invalidNumber, s.offset⟩⟩

end Scan

/-- The lexemes of a text in their order. -/
def Lexeme.scan (text : String) : List Lexeme :=
  (text.toList.foldl Scan.step .empty).finish.lexemes.reverse

end Json
end ApiReference
