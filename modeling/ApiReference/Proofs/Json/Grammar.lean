/-
# The grammar of JSON texts

A `Term` is what a JSON text says, spelling left out: numerals digit by digit,
strings by their text, lists in order, and objects as their members in order,
of which several may have one key. `Term.HasText` relates a term to every text
that spells it: blanks between the lexemes, characters of strings written plain,
by a letter or by the four hexadecimal digits of their 16-bit units, exponents
with either mark.

Strings are sequences of 16-bit units, so an escape may stand for one half of a
surrogate pair without the other. Such a string is well formed, but no text has
its units: its term is `string none`.

Key definitions: `Term`, `StringSpells`, `NumeralSpells`, `Term.Spells`,
`Term.HasText`.
-/
import ApiReference.Decimal.Numeral

namespace ApiReference
namespace Json

/-- What a JSON text says. The text of a string or a key is `none` if it has an
unpaired surrogate. -/
inductive Term where
  | null
  | bool (value : Bool)
  | number (numeral : Numeral)
  | string (text : Option String)
  | list (items : List Term)
  | object (members : List (Option String × Term))

/-- Nothing but white space. -/
def Blank (cs : List Char) : Prop := ∀ c ∈ cs, c = ' ' ∨ c = '\t' ∨ c = '\n' ∨ c = '\r'

theorem blank_nil : Blank [] := fun _ h => absurd h List.not_mem_nil

theorem Blank.append {w w' : List Char} (h : Blank w) (h' : Blank w') : Blank (w ++ w') := by
  intro c hc
  rw [List.mem_append] at hc
  rcases hc with hc | hc
  · exact h c hc
  · exact h' c hc

/-! ### Strings -/

/-- The 16-bit units of a character: its number, or the two halves of a
surrogate pair. -/
def units (c : Char) : List Nat :=
  if c.toNat < 0x10000 then [c.toNat]
  else [0xD800 + (c.toNat - 0x10000) / 0x400, 0xDC00 + (c.toNat - 0x10000) % 0x400]

/-- The letters that may follow a backslash, with the characters they stand for. -/
def letters : List (Char × Char) :=
  [('"', '"'), ('\\', '\\'), ('/', '/'), ('b', '\x08'), ('f', '\x0c'), ('n', '\n'), ('r', '\r'),
    ('t', '\t')]

/-- `c` is the hexadecimal digit `n`, in either case. -/
def IsHexDigit (c : Char) (n : Nat) : Prop :=
  "0123456789abcdef".toList[n]? = some c ∨ "0123456789ABCDEF".toList[n]? = some c

/-- A part of a string: a character, or a single unit. -/
inductive Part where
  | char (c : Char)
  | unit (n : Nat)

namespace Part

/-- The units of a part. -/
def units : Part → List Nat
  | .char c => Json.units c
  | .unit n => [n]

/-- How a part may be written. -/
inductive Spells : Part → List Char → Prop
  | plain {c : Char} (quote : c ≠ '"') (escape : c ≠ '\\') (control : 0x20 ≤ c.toNat) :
    Spells (.char c) [c]
  | letter {l c : Char} (h : (l, c) ∈ letters) : Spells (.char c) ['\\', l]
  | hex {a b c d : Char} {i j k l : Nat} (ha : IsHexDigit a i) (hb : IsHexDigit b j)
    (hc : IsHexDigit c k) (hd : IsHexDigit d l) :
    Spells (.unit (((i * 16 + j) * 16 + k) * 16 + l)) ['\\', 'u', a, b, c, d]

end Part

/-- Parts written one behind the other. -/
inductive PartsSpell : List Part → List Char → Prop
  | nil : PartsSpell [] []
  | cons {p : Part} {ps : List Part} {cs rest : List Char} (h : p.Spells cs)
    (hs : PartsSpell ps rest) : PartsSpell (p :: ps) (cs ++ rest)

/-- `cs` is a string between quotes, and `text` is the text that has its units, or
`none` if no text has. -/
def StringSpells (text : Option String) (cs : List Char) : Prop :=
  ∃ parts body, cs = '"' :: body ++ ['"'] ∧ PartsSpell parts body ∧
    ∀ s, text = some s ↔ parts.flatMap Part.units = s.toList.flatMap units

/-! ### Numbers -/

/-- Decimal digits, at least one. -/
def IsDigits (ds : List Nat) : Prop := ds ≠ [] ∧ ∀ d ∈ ds, d < 10

/-- Digits as they are written. -/
def digits (ds : List Nat) : List Char := ds.map Nat.digitChar

/-- An exponent behind its mark, with a sign that may be left out unless it is a minus. -/
inductive ExponentSpells : Option Numeral.Exponent → List Char → Prop
  | absent : ExponentSpells none []
  | plain {mark : Char} {ds : List Nat} (hm : mark = 'e' ∨ mark = 'E') (hd : IsDigits ds) :
    ExponentSpells (some ⟨false, ds⟩) (mark :: digits ds)
  | plus {mark : Char} {ds : List Nat} (hm : mark = 'e' ∨ mark = 'E') (hd : IsDigits ds) :
    ExponentSpells (some ⟨false, ds⟩) (mark :: '+' :: digits ds)
  | minus {mark : Char} {ds : List Nat} (hm : mark = 'e' ∨ mark = 'E') (hd : IsDigits ds) :
    ExponentSpells (some ⟨true, ds⟩) (mark :: '-' :: digits ds)

/-- A fraction behind its point. -/
inductive FractionSpells : List Nat → List Char → Prop
  | absent : FractionSpells [] []
  | present {ds : List Nat} (h : IsDigits ds) : FractionSpells ds ('.' :: digits ds)

/-- A numeral: the sign, the digits before the point without a leading zero, the
fraction and the exponent. -/
inductive NumeralSpells : Numeral → List Char → Prop
  | mk {negative : Bool} {whole fraction : List Nat} {exponent : Option Numeral.Exponent}
    {fs es : List Char} (hw : IsDigits whole) (hz : whole.head? = some 0 → whole = [0])
    (hf : FractionSpells fraction fs) (he : ExponentSpells exponent es) :
    NumeralSpells ⟨negative, whole, fraction, exponent⟩
      ((if negative then ['-'] else []) ++ (digits whole ++ (fs ++ es)))

/-! ### Values -/

namespace Term

mutual

/-- `cs` spells a term, with nothing before or behind it. -/
inductive Spells : Term → List Char → Prop
  | null : Spells .null "null".toList
  | true : Spells (.bool true) "true".toList
  | false : Spells (.bool false) "false".toList
  | number {x : Numeral} {cs : List Char} (h : NumeralSpells x cs) : Spells (.number x) cs
  | string {text : Option String} {cs : List Char} (h : StringSpells text cs) :
    Spells (.string text) cs
  | emptyList {w : List Char} (h : Blank w) : Spells (.list []) ('[' :: w ++ [']'])
  | list {ts : List Term} {cs : List Char} (h : ItemsSpell ts cs) :
    Spells (.list ts) ('[' :: cs ++ [']'])
  | emptyObject {w : List Char} (h : Blank w) : Spells (.object []) ('\x7b' :: w ++ ['\x7d'])
  | object {ms : List (Option String × Term)} {cs : List Char} (h : MembersSpell ms cs) :
    Spells (.object ms) ('\x7b' :: cs ++ ['\x7d'])

/-- `cs` spells items, at least one, with commas between them. -/
inductive ItemsSpell : List Term → List Char → Prop
  | last {t : Term} {w cs w' : List Char} (hw : Blank w) (h : t.Spells cs) (hw' : Blank w') :
    ItemsSpell [t] (w ++ (cs ++ w'))
  | more {t : Term} {ts : List Term} {w cs w' rest : List Char} (hw : Blank w) (h : t.Spells cs)
    (hw' : Blank w') (hs : ItemsSpell ts rest) : ItemsSpell (t :: ts) (w ++ (cs ++ (w' ++ ',' :: rest)))

/-- `cs` spells members, at least one, with commas between them. -/
inductive MembersSpell : List (Option String × Term) → List Char → Prop
  | last {k : Option String} {t : Term} {w ks w₁ w₂ cs w' : List Char} (hw : Blank w)
    (hk : StringSpells k ks) (hw₁ : Blank w₁) (hw₂ : Blank w₂) (h : t.Spells cs) (hw' : Blank w') :
    MembersSpell [(k, t)] (w ++ (ks ++ (w₁ ++ ':' :: (w₂ ++ (cs ++ w')))))
  | more {k : Option String} {t : Term} {ms : List (Option String × Term)}
    {w ks w₁ w₂ cs w' rest : List Char} (hw : Blank w) (hk : StringSpells k ks) (hw₁ : Blank w₁)
    (hw₂ : Blank w₂) (h : t.Spells cs) (hw' : Blank w') (hs : MembersSpell ms rest) :
    MembersSpell ((k, t) :: ms) (w ++ (ks ++ (w₁ ++ ':' :: (w₂ ++ (cs ++ (w' ++ ',' :: rest))))))

end

/-- `text` says `t`: it spells it, with blanks around. -/
def HasText (t : Term) (text : String) : Prop :=
  ∃ w cs w', Blank w ∧ t.Spells cs ∧ Blank w' ∧ text.toList = w ++ (cs ++ w')

end Term
end Json
end ApiReference
