/-
# A text of the grammar is read to the tree of its term

`Source.Says` relates a tree with its places to the term without them. The
builder reads the lexemes of a value in whatever containers the value stands
(`build_value`, with `build_items` and `build_members` for what is inside a
container), so a text that says a term is read to a tree that says it, and
nothing is left over (`ofText_of_hasText`).

Key definitions: `Source.Says`, `Build.Awaits`.
Key theorems: `build_value`, `ofText_of_hasText`.
-/
import ApiReference.Json.Document
import ApiReference.Proofs.Json.Scanning

namespace ApiReference
namespace Json

/-! ### Trees and terms -/

mutual

/-- The tree says the term: it has no gap, and its numbers and strings keep the
values of the term's, or a fault where these have none. -/
inductive Source.Says : Source → Term → Prop
  | null {stop : Nat} : Source.Says (.null stop) .null
  | bool {b : Bool} {stop : Nat} : Source.Says (.bool b stop) (.bool b)
  | number {kept : Except Fault Number} {x : Numeral} {stop : Nat} (h : kept.toOption = x.value?) :
    Source.Says (.number kept stop) (.number x)
  | string {kept : Except Fault String} {text : Option String} {stop : Nat}
    (h : kept.toOption = text) : Source.Says (.string kept stop) (.string text)
  | list {items : Items} {ts : List Term} {start : Nat} (h : Items.Say items ts) :
    Source.Says (.list start items) (.list ts)
  | object {members : Members} {ms : List (Option String × Term)} {start : Nat}
    (h : Members.Say members ms) : Source.Says (.object start members) (.object ms)

/-- The items say the terms, in order. -/
inductive Items.Say : Items → List Term → Prop
  | closed {stop : Nat} : Items.Say (.closed stop) []
  | item {v : Source} {t : Term} {rest : Items} {ts : List Term} {start : Nat} (h : v.Says t)
    (hs : Items.Say rest ts) : Items.Say (.item start v rest) (t :: ts)

/-- The members say the members of a term, in order. -/
inductive Members.Say : Members → List (Option String × Term) → Prop
  | closed {stop : Nat} : Members.Say (.closed stop) []
  | member {key : Except Fault String} {k : Option String} {v : Source} {t : Term} {rest : Members}
    {ms : List (Option String × Term)} {settled : Nat} (hk : key.toOption = k) (h : v.Says t)
    (hs : Members.Say rest ms) : Members.Say (.member key settled v rest) ((k, t) :: ms)

end

/-! ### What may follow a value -/

theorem delimited_nil : Delimited [] := by simp [Delimited]

theorem delimited_cons {c : Char} (h : c.isDigit = false ∧ c ≠ '.' ∧ c ≠ 'e' ∧ c ≠ 'E')
    (rest : List Char) : Delimited (c :: rest) := by
  intro d hd
  simp only [List.head?_cons, Option.mem_def, Option.some.injEq] at hd
  exact hd ▸ h

theorem Blank.delimited {w : List Char} (h : Blank w) {rest : List Char} (hr : Delimited rest) :
    Delimited (w ++ rest) := by
  cases w with
  | nil => exact hr
  | cons c w =>
    refine delimited_cons ?_ (w ++ rest)
    rcases h c (List.mem_cons_self ..) with rfl | rfl | rfl | rfl <;> decide

/-! ### Building -/

/-- The token is the first of a value. -/
def Token.opens : Token → Bool
  | .null | .bool _ | .string _ | .number _ | .openList | .openObject => true
  | _ => false

namespace Build

/-- A value may come at byte `o`, and stands in `holes`. -/
def Awaits (b : Build) (o : Nat) (holes : List Hole) : Prop :=
  ∀ x : Lexeme, x.start = o → x.token.opens = true → b.step x = begin x holes

theorem awaits_value (o : Nat) (holes : List Hole) : (Build.value holes).Awaits o holes :=
  fun _ _ _ => rfl

theorem awaits_item {place : Place} (hp : place ≠ .behind) (start : Nat) (done : List (Nat × Source))
    (holes : List Hole) (o : Nat) :
    (Build.items place start done holes).Awaits o (.item start done o :: holes) := by
  rintro ⟨token, x, stop⟩ rfl ht
  cases place with
  | behind => exact absurd rfl hp
  | first => cases token <;> first | rfl | cases ht
  | next => cases token <;> first | rfl | cases ht

end Build

/-- The state of the builder when it has read the lexemes of `cs`, which stands at byte `o`. -/
def buildFrom (b : Build) (o : Nat) (cs : List Char) : Build := (scanFrom o cs).foldl Build.step b

theorem buildFrom_blank {w : List Char} (h : Blank w) (b : Build) (o : Nat) (rest : List Char) :
    buildFrom b o (w ++ rest) = buildFrom b (o + bytes w) rest := by
  rw [buildFrom, scanFrom_blank h, buildFrom]

theorem buildFrom_mark {c : Char} {token : Token} (h : Scan.mark? c = some token) (b : Build) (o : Nat)
    (rest : List Char) :
    buildFrom b o (c :: rest) = buildFrom (b.step ⟨token, o, o + 1⟩) (o + 1) rest := by
  rw [buildFrom, scanFrom_mark h, List.foldl_cons, buildFrom]

/-- A key and its colon are read to the place of the member's value. -/
theorem buildFrom_key {k : Option String} {w ks w₁ w₂ : List Char} (hw : Blank w)
    (hk : StringSpells k ks) (hw₁ : Blank w₁) (hw₂ : Blank w₂) (o : Nat) :
    ∃ key : Key, key.name.toOption = k ∧
      ∀ (place : Place) (start : Nat) (done : List (Key × Source)) (holes : List Hole)
        (rest : List Char), place ≠ .behind →
        buildFrom (.members place start done holes) o (w ++ (ks ++ (w₁ ++ ':' :: (w₂ ++ rest)))) =
          buildFrom (.value (.member start done key :: holes))
            (o + bytes w + bytes ks + bytes w₁ + 1 + bytes w₂) rest := by
  obtain ⟨kept, hkept, he⟩ := scanFrom_string hk (o + bytes w)
  refine ⟨⟨kept, o + bytes w + bytes ks + bytes w₁⟩, hkept, fun place start done holes rest hp => ?_⟩
  rw [buildFrom_blank hw, buildFrom, he, List.foldl_cons, ← buildFrom, buildFrom_blank hw₁,
    buildFrom_mark rfl, buildFrom_blank hw₂]
  cases place with
  | behind => exact absurd rfl hp
  | first => rfl
  | next => rfl

mutual

/-- A value is read to a tree that says it and completes the hole it stands in. -/
theorem build_value : ∀ {t : Term} {cs : List Char}, t.Spells cs → ∀ o : Nat,
    ∃ (v : Source) (o' : Nat), v.Says t ∧ ∀ (b : Build) (holes : List Hole) (rest : List Char),
      b.Awaits o holes → Delimited rest →
        buildFrom b o (cs ++ rest) = buildFrom (.complete v holes) o' rest
  | _, _, .null, o => by
    refine ⟨.null (o + 4), o + 4, .null, fun b holes rest hb _ => ?_⟩
    rw [buildFrom, scanFrom_null, List.foldl_cons, hb _ rfl rfl]
    rfl
  | _, _, .true, o => by
    refine ⟨.bool true (o + 4), o + 4, .bool, fun b holes rest hb _ => ?_⟩
    rw [buildFrom, scanFrom_true, List.foldl_cons, hb _ rfl rfl]
    rfl
  | _, _, .false, o => by
    refine ⟨.bool false (o + 5), o + 5, .bool, fun b holes rest hb _ => ?_⟩
    rw [buildFrom, scanFrom_false, List.foldl_cons, hb _ rfl rfl]
    rfl
  | _, cs, .number h, o => by
    obtain ⟨kept, hk, he⟩ := scanFrom_number h o
    refine ⟨.number kept (o + bytes cs), o + bytes cs, .number hk, fun b holes rest hb hr => ?_⟩
    rw [buildFrom, he rest hr, List.foldl_cons, hb _ rfl rfl]
    rfl
  | _, cs, .string h, o => by
    obtain ⟨kept, hk, he⟩ := scanFrom_string h o
    refine ⟨.string kept (o + bytes cs), o + bytes cs, .string hk, fun b holes rest hb _ => ?_⟩
    rw [buildFrom, he rest, List.foldl_cons, hb _ rfl rfl]
    rfl
  | _, _, @Term.Spells.emptyList w hw, o => by
    refine ⟨.list o (.closed (o + 1 + bytes w + 1)), o + 1 + bytes w + 1, .list .closed,
      fun b holes rest hb _ => ?_⟩
    rw [List.cons_append, List.cons_append, List.append_assoc, buildFrom_mark rfl, hb _ rfl rfl,
      buildFrom_blank hw, List.singleton_append, buildFrom_mark rfl]
    rfl
  | _, _, @Term.Spells.list _ cs h, o => by
    obtain ⟨items, o', hi, he⟩ := build_items h (o + 1)
    refine ⟨.list o items, o', .list hi, fun b holes rest hb _ => ?_⟩
    rw [List.cons_append, List.cons_append, List.append_assoc, buildFrom_mark rfl, hb _ rfl rfl]
    exact he .first o [] holes rest (by decide)
  | _, _, @Term.Spells.emptyObject w hw, o => by
    refine ⟨.object o (.closed (o + 1 + bytes w + 1)), o + 1 + bytes w + 1, .object .closed,
      fun b holes rest hb _ => ?_⟩
    rw [List.cons_append, List.cons_append, List.append_assoc, buildFrom_mark rfl, hb _ rfl rfl,
      buildFrom_blank hw, List.singleton_append, buildFrom_mark rfl]
    rfl
  | _, _, @Term.Spells.object _ cs h, o => by
    obtain ⟨members, o', hm, he⟩ := build_members h (o + 1)
    refine ⟨.object o members, o', .object hm, fun b holes rest hb _ => ?_⟩
    rw [List.cons_append, List.cons_append, List.append_assoc, buildFrom_mark rfl, hb _ rfl rfl]
    exact he .first o [] holes rest (by decide)

/-- Items are read up to the bracket behind them, which completes their list. -/
theorem build_items : ∀ {ts : List Term} {cs : List Char}, Term.ItemsSpell ts cs → ∀ o : Nat,
    ∃ (items : Items) (o' : Nat), items.Say ts ∧
      ∀ (place : Place) (start : Nat) (done : List (Nat × Source)) (holes : List Hole)
        (rest : List Char), place ≠ .behind →
        buildFrom (.items place start done holes) o (cs ++ ']' :: rest) =
          buildFrom (.complete (.list start (.after done items)) holes) o' rest
  | _, _, @Term.ItemsSpell.last _ w cs w' hw h hw', o => by
    obtain ⟨v, o', hv, he⟩ := build_value h (o + bytes w)
    refine ⟨.item (o + bytes w) v (.closed (o' + bytes w' + 1)), o' + bytes w' + 1,
      .item hv .closed, fun place start done holes rest hp => ?_⟩
    rw [List.append_assoc, List.append_assoc, buildFrom_blank hw,
      he _ _ _ (Build.awaits_item hp start done holes _) (hw'.delimited (delimited_cons (by decide) _)),
      buildFrom_blank hw', buildFrom_mark rfl]
    rfl
  | _, _, @Term.ItemsSpell.more _ _ w cs w' more hw h hw' hs, o => by
    obtain ⟨v, o₁, hv, he⟩ := build_value h (o + bytes w)
    obtain ⟨items, o₂, hi, hes⟩ := build_items hs (o₁ + bytes w' + 1)
    refine ⟨.item (o + bytes w) v items, o₂, .item hv hi, fun place start done holes rest hp => ?_⟩
    rw [List.append_assoc, List.append_assoc, List.append_assoc, List.cons_append,
      buildFrom_blank hw,
      he _ _ _ (Build.awaits_item hp start done holes _) (hw'.delimited (delimited_cons (by decide) _)),
      buildFrom_blank hw', buildFrom_mark rfl]
    exact hes .next start ((o + bytes w, v) :: done) holes rest (by decide)

/-- Members are read up to the brace behind them, which completes their object. -/
theorem build_members : ∀ {ms : List (Option String × Term)} {cs : List Char},
    Term.MembersSpell ms cs → ∀ o : Nat, ∃ (members : Members) (o' : Nat), members.Say ms ∧
      ∀ (place : Place) (start : Nat) (done : List (Key × Source)) (holes : List Hole)
        (rest : List Char), place ≠ .behind →
        buildFrom (.members place start done holes) o (cs ++ '\x7d' :: rest) =
          buildFrom (.complete (.object start (.after done members)) holes) o' rest
  | _, _, @Term.MembersSpell.last _ _ w ks w₁ w₂ _ w' hw hk hw₁ hw₂ h hw', o => by
    obtain ⟨key, hkey, ek⟩ := buildFrom_key hw hk hw₁ hw₂ o
    obtain ⟨v, o', hv, he⟩ := build_value h (o + bytes w + bytes ks + bytes w₁ + 1 + bytes w₂)
    refine ⟨.member key.name key.settled v (.closed (o' + bytes w' + 1)), o' + bytes w' + 1,
      .member hkey hv .closed, fun place start done holes rest hp => ?_⟩
    rw [List.append_assoc, List.append_assoc, List.append_assoc, List.cons_append, List.append_assoc,
      List.append_assoc, ek place start done holes _ hp,
      he _ _ _ (Build.awaits_value _ _) (hw'.delimited (delimited_cons (by decide) _)),
      buildFrom_blank hw', buildFrom_mark rfl]
    rfl
  | _, _, @Term.MembersSpell.more _ _ _ w ks w₁ w₂ _ w' _ hw hk hw₁ hw₂ h hw' hs, o => by
    obtain ⟨key, hkey, ek⟩ := buildFrom_key hw hk hw₁ hw₂ o
    obtain ⟨v, o₁, hv, he⟩ := build_value h (o + bytes w + bytes ks + bytes w₁ + 1 + bytes w₂)
    obtain ⟨members, o₂, hm, hes⟩ := build_members hs (o₁ + bytes w' + 1)
    refine ⟨.member key.name key.settled v members, o₂, .member hkey hv hm,
      fun place start done holes rest hp => ?_⟩
    rw [List.append_assoc, List.append_assoc, List.append_assoc, List.cons_append, List.append_assoc,
      List.append_assoc, List.append_assoc, List.cons_append, ek place start done holes _ hp,
      he _ _ _ (Build.awaits_value _ _) (hw'.delimited (delimited_cons (by decide) _)),
      buildFrom_blank hw', buildFrom_mark rfl]
    exact hes .next start ((key, v) :: done) holes rest (by decide)

end

/-- A text that says a term is read to a tree that says it, and nothing is left over. -/
theorem ofText_of_hasText {t : Term} {text : String} (h : t.HasText text) :
    ∃ v : Source, v.Says t ∧ Document.ofText text = ⟨v, none⟩ := by
  obtain ⟨w, cs, w', hw, hs, hw', ht⟩ := h
  obtain ⟨v, o', hv, he⟩ := build_value hs (0 + bytes w)
  refine ⟨v, hv, ?_⟩
  have hb : buildFrom .empty 0 text.toList = .whole v := by
    rw [ht, buildFrom_blank hw, Build.empty,
      he _ _ _ (Build.awaits_value _ []) (by simpa using hw'.delimited delimited_nil)]
    have hn : w' = w' ++ [] := by simp
    rw [hn, buildFrom_blank hw']
    rfl
  unfold Document.ofText Document.ofLexemes
  rw [scan_eq, ← buildFrom, hb]
  rfl

end Json
end ApiReference
