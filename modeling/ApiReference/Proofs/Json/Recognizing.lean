/-
# A text that meets no fault is a text of the grammar

What the builder has read is the containers it is in, each up to the value that is
awaited (`Opened`), and what it is in the middle of (`Build.Covers`). A lexeme keeps
this (`covers_step`), unless the builder stops, and then its document has a fault that
every reader meets (`Document.Faulty`). So a text whose document has no fault says a
term, and with `ofText_of_hasText` these are the well-formed texts, no more and no
fewer (`exists_hasText_iff`).

Key definitions: `Document.Faulty`, `ItemsOpen`, `MembersOpen`, `Opened`, `Build.Covers`.
Key theorems: `skipFault?_within`, `covers_complete`, `covers_step`,
`exists_hasText_iff`.
-/
import ApiReference.Proofs.Json.Lexing
import ApiReference.Proofs.Json.Meaning

namespace ApiReference
namespace Json

/-! ### Documents with a fault -/

/-- Passing over the value meets a fault, or something is behind it. -/
def Document.Faulty (d : Document) : Prop := d.value.skipFault?.isSome ∨ d.trailing.isSome

theorem skipFault?_after_items (done : List (Nat × Source)) {rest : Items}
    (h : rest.skipFault?.isSome) : (Items.after done rest).skipFault?.isSome := by
  induction done generalizing rest with
  | nil => exact h
  | cons x done ih =>
    apply ih
    unfold Items.skipFault?
    cases x.2.skipFault? with
    | none => exact h
    | some f => rfl

theorem skipFault?_after_members (done : List (Key × Source)) {rest : Members}
    (h : rest.skipFault?.isSome) : (Members.after done rest).skipFault?.isSome := by
  induction done generalizing rest with
  | nil => exact h
  | cons x done ih =>
    apply ih
    unfold Members.skipFault?
    cases x.2.skipFault? with
    | none => exact h
    | some f => rfl

/-- The containers around a gap break off, so they have a fault too. -/
theorem skipFault?_within (why : Break) : ∀ (holes : List Hole) (v : Source), v.skipFault?.isSome →
    (v.within why holes).skipFault?.isSome
  | [], _, h => h
  | .item start done here :: holes, v, h => by
    unfold Source.within
    apply skipFault?_within why holes
    apply skipFault?_after_items done
    unfold Items.skipFault?
    obtain ⟨f, hf⟩ := Option.isSome_iff_exists.mp h
    rw [hf]
    rfl
  | .member start done key :: holes, v, h => by
    unfold Source.within
    apply skipFault?_within why holes
    apply skipFault?_after_members done
    unfold Members.skipFault?
    obtain ⟨f, hf⟩ := Option.isSome_iff_exists.mp h
    rw [hf]
    rfl

theorem faulty_stop {source : Source} (h : source.skipFault?.isSome) (why : Break) (holes : List Hole) :
    (Build.stop source why holes).Faulty := .inl (skipFault?_within why holes source h)

theorem faulty_stopItems (start : Nat) (done : List (Nat × Source)) (why : Break) (beyond : Fault)
    (holes : List Hole) : (Build.stopItems start done why beyond holes).Faulty := by
  apply faulty_stop
  exact skipFault?_after_items done rfl

theorem faulty_stopMembers (start : Nat) (done : List (Key × Source)) (why : Break) (holes : List Hole) :
    (Build.stopMembers start done why holes).Faulty := by
  apply faulty_stop
  exact skipFault?_after_members done rfl

theorem faulty_stopColon (start : Nat) (done : List (Key × Source)) (key : Key) (why : Break)
    (holes : List Hole) : (Build.stopColon start done key why holes).Faulty := by
  apply faulty_stop
  rfl

/-! ### Items and members, the last one added -/

namespace Term

/-- Blanks behind items belong to them. -/
theorem ItemsSpell.blank : ∀ {ts : List Term} {cs : List Char}, ItemsSpell ts cs → ∀ {w : List Char},
    Blank w → ItemsSpell ts (cs ++ w)
  | _, _, .last h ht h', w, hw => by
    rw [List.append_assoc, List.append_assoc]
    exact .last h ht (h'.append hw)
  | _, _, .more h ht h' hs, w, hw => by
    rw [List.append_assoc, List.append_assoc, List.append_assoc, List.cons_append]
    exact .more h ht h' (hs.blank hw)

/-- An item behind a comma. -/
theorem ItemsSpell.snoc : ∀ {ts : List Term} {cs : List Char}, ItemsSpell ts cs →
    ∀ {t : Term} {w ds : List Char}, Blank w → t.Spells ds →
      ItemsSpell (ts ++ [t]) (cs ++ ',' :: (w ++ ds))
  | _, _, .last h ht h', t, w, ds, hw, hd => by
    have hlast := ItemsSpell.last hw hd blank_nil
    rw [List.append_nil] at hlast
    rw [List.append_assoc, List.append_assoc]
    exact .more h ht h' hlast
  | _, _, .more h ht h' hs, t, w, ds, hw, hd => by
    rw [List.append_assoc, List.append_assoc, List.append_assoc, List.cons_append]
    exact .more h ht h' (hs.snoc hw hd)

/-- Blanks behind members belong to them. -/
theorem MembersSpell.blank : ∀ {ms : List (Option String × Term)} {cs : List Char}, MembersSpell ms cs →
    ∀ {w : List Char}, Blank w → MembersSpell ms (cs ++ w)
  | _, _, .last h hk h₁ h₂ ht h', w, hw => by
    simp only [List.append_assoc, List.cons_append]
    exact .last h hk h₁ h₂ ht (h'.append hw)
  | _, _, .more h hk h₁ h₂ ht h' hs, w, hw => by
    simp only [List.append_assoc, List.cons_append]
    exact .more h hk h₁ h₂ ht h' (hs.blank hw)

/-- A member behind a comma. -/
theorem MembersSpell.snoc : ∀ {ms : List (Option String × Term)} {cs : List Char}, MembersSpell ms cs →
    ∀ {k : Option String} {t : Term} {w ks w₁ w₂ ds : List Char}, Blank w → StringSpells k ks →
      Blank w₁ → Blank w₂ → t.Spells ds →
        MembersSpell (ms ++ [(k, t)]) (cs ++ ',' :: (w ++ (ks ++ (w₁ ++ ':' :: (w₂ ++ ds)))))
  | _, _, .last h hk h₁ h₂ ht h', k, t, w, ks, w₁, w₂, ds, hw, hks, hw₁, hw₂, hd => by
    have hlast := MembersSpell.last hw hks hw₁ hw₂ hd blank_nil
    rw [List.append_nil] at hlast
    simp only [List.append_assoc, List.cons_append]
    exact .more h hk h₁ h₂ ht h' hlast
  | _, _, .more h hk h₁ h₂ ht h' hs, k, t, w, ks, w₁, w₂, ds, hw, hks, hw₁, hw₂, hd => by
    simp only [List.append_assoc, List.cons_append]
    exact .more h hk h₁ h₂ ht h' (hs.snoc hw hks hw₁ hw₂ hd)

end Term

/-- A bracket, a comma or a colon is spelled by its character only. -/
theorem Token.Spells.eq_of_mark? {token : Token} {cs : List Char} (h : token.Spells cs) {c : Char}
    (hc : Scan.mark? c = some token) : cs = [c] := by
  unfold Scan.mark? at hc
  split at hc <;> cases hc
  all_goals
    cases h with
    | mark hm =>
      unfold Scan.mark? at hm
      split at hm <;> cases hm
      rfl

theorem Token.Spells.stringSpells {kept : Except Fault String} {cs : List Char}
    (h : Token.Spells (.string kept) cs) : ∃ text, StringSpells text cs := by
  cases h with
  | string hs => exact ⟨_, hs⟩
  | mark hm =>
    unfold Scan.mark? at hm
    split at hm <;> cases hm

/-! ### What the builder has read -/

/-- `ds` stands in a list behind its bracket, at the place the builder is at. -/
def ItemsOpen : Place → List Char → Prop
  | .first, ds => Blank ds
  | .behind, ds => ∃ ts, Term.ItemsSpell ts ds
  | .next, ds => ∃ ts cs w, Term.ItemsSpell ts cs ∧ Blank w ∧ ds = cs ++ ',' :: w

/-- `ds` stands in an object behind its brace, at the place the builder is at. -/
def MembersOpen : Place → List Char → Prop
  | .first, ds => Blank ds
  | .behind, ds => ∃ ms, Term.MembersSpell ms ds
  | .next, ds => ∃ ms cs w, Term.MembersSpell ms cs ∧ Blank w ∧ ds = cs ++ ',' :: w

/-- `cs` ends where a value is awaited that stands in the containers `holes`, which it opens. -/
inductive Opened : List Hole → List Char → Prop
  | nil {w : List Char} (hw : Blank w) : Opened [] w
  | item {holes : List Hole} {start here : Nat} {done : List (Nat × Source)} {place : Place}
    {cs ds : List Char} (h : Opened holes cs) (hp : place ≠ .behind) (hd : ItemsOpen place ds) :
    Opened (.item start done here :: holes) (cs ++ '[' :: ds)
  | member {holes : List Hole} {start : Nat} {done : List (Key × Source)} {key : Key} {place : Place}
    {k : Option String} {cs ds ks w₁ w₂ : List Char} (h : Opened holes cs) (hp : place ≠ .behind)
    (hd : MembersOpen place ds) (hk : StringSpells k ks) (hw₁ : Blank w₁) (hw₂ : Blank w₂) :
    Opened (.member start done key :: holes) (cs ++ '\x7b' :: (ds ++ (ks ++ (w₁ ++ ':' :: w₂))))

namespace Build

/-- The builder has read the text `cs`. -/
inductive Covers : Build → List Char → Prop
  | value {holes : List Hole} {cs : List Char} (h : Opened holes cs) : Covers (.value holes) cs
  | items {place : Place} {start : Nat} {done : List (Nat × Source)} {holes : List Hole}
    {cs ds : List Char} (h : Opened holes cs) (hd : ItemsOpen place ds) :
    Covers (.items place start done holes) (cs ++ '[' :: ds)
  | members {place : Place} {start : Nat} {done : List (Key × Source)} {holes : List Hole}
    {cs ds : List Char} (h : Opened holes cs) (hd : MembersOpen place ds) :
    Covers (.members place start done holes) (cs ++ '\x7b' :: ds)
  | colon {place : Place} {start : Nat} {done : List (Key × Source)} {name : Except Fault String}
    {holes : List Hole} {k : Option String} {cs ds ks w : List Char} (h : Opened holes cs)
    (hp : place ≠ .behind) (hd : MembersOpen place ds) (hk : StringSpells k ks) (hw : Blank w) :
    Covers (.colon start done name holes) (cs ++ '\x7b' :: (ds ++ (ks ++ w)))
  | whole {v : Source} {t : Term} {w cs w' : List Char} (hw : Blank w) (h : t.Spells cs) (hw' : Blank w') :
    Covers (.whole v) (w ++ (cs ++ w'))
  | stopped {d : Document} {cs : List Char} (h : d.Faulty) : Covers (.stopped d) cs

end Build

theorem ItemsOpen.blank {place : Place} {ds w : List Char} (h : ItemsOpen place ds) (hw : Blank w) :
    ItemsOpen place (ds ++ w) := by
  cases place with
  | first => exact Blank.append h hw
  | behind =>
    obtain ⟨ts, hs⟩ := h
    exact ⟨ts, hs.blank hw⟩
  | next =>
    obtain ⟨ts, cs, w', hs, hw', rfl⟩ := h
    exact ⟨ts, cs, w' ++ w, hs, hw'.append hw, by rw [List.append_assoc, List.cons_append]⟩

theorem MembersOpen.blank {place : Place} {ds w : List Char} (h : MembersOpen place ds) (hw : Blank w) :
    MembersOpen place (ds ++ w) := by
  cases place with
  | first => exact Blank.append h hw
  | behind =>
    obtain ⟨ms, hs⟩ := h
    exact ⟨ms, hs.blank hw⟩
  | next =>
    obtain ⟨ms, cs, w', hs, hw', rfl⟩ := h
    exact ⟨ms, cs, w' ++ w, hs, hw'.append hw, by rw [List.append_assoc, List.cons_append]⟩

/-- An item where one may stand. -/
theorem ItemsOpen.item {place : Place} {ds cs : List Char} (h : ItemsOpen place ds) (hp : place ≠ .behind)
    {t : Term} (ht : t.Spells cs) : ItemsOpen .behind (ds ++ cs) := by
  cases place with
  | first =>
    have hlast := Term.ItemsSpell.last h ht blank_nil
    rw [List.append_nil] at hlast
    exact ⟨_, hlast⟩
  | behind => exact absurd rfl hp
  | next =>
    obtain ⟨ts, es, w, hs, hw, rfl⟩ := h
    rw [List.append_assoc, List.cons_append]
    exact ⟨_, hs.snoc hw ht⟩

/-- A member where one may stand. -/
theorem MembersOpen.member {place : Place} {ds ks w₁ w₂ cs : List Char} (h : MembersOpen place ds)
    (hp : place ≠ .behind) {k : Option String} {t : Term} (hk : StringSpells k ks) (hw₁ : Blank w₁)
    (hw₂ : Blank w₂) (ht : t.Spells cs) :
    MembersOpen .behind (ds ++ (ks ++ (w₁ ++ ':' :: (w₂ ++ cs)))) := by
  cases place with
  | first =>
    have hlast := Term.MembersSpell.last h hk hw₁ hw₂ ht blank_nil
    rw [List.append_nil] at hlast
    exact ⟨_, hlast⟩
  | behind => exact absurd rfl hp
  | next =>
    obtain ⟨ms, es, w, hs, hw, rfl⟩ := h
    rw [List.append_assoc, List.cons_append]
    exact ⟨_, hs.snoc hw hk hw₁ hw₂ ht⟩

theorem ItemsOpen.comma {ds : List Char} (h : ItemsOpen .behind ds) : ItemsOpen .next (ds ++ [',']) := by
  obtain ⟨ts, hs⟩ := h
  exact ⟨ts, ds, [], hs, blank_nil, rfl⟩

theorem MembersOpen.comma {ds : List Char} (h : MembersOpen .behind ds) :
    MembersOpen .next (ds ++ [',']) := by
  obtain ⟨ms, hs⟩ := h
  exact ⟨ms, ds, [], hs, blank_nil, rfl⟩

/-- A list may be closed anywhere but behind a comma. -/
theorem ItemsOpen.close {place : Place} {ds : List Char} (h : ItemsOpen place ds) (hp : place ≠ .next) :
    ∃ t : Term, t.Spells ('[' :: (ds ++ [']'])) := by
  cases place with
  | first => exact ⟨_, .emptyList h⟩
  | behind =>
    obtain ⟨ts, hs⟩ := h
    exact ⟨_, .list hs⟩
  | next => exact absurd rfl hp

/-- An object may be closed anywhere but behind a comma. -/
theorem MembersOpen.close {place : Place} {ds : List Char} (h : MembersOpen place ds)
    (hp : place ≠ .next) : ∃ t : Term, t.Spells ('\x7b' :: (ds ++ ['\x7d'])) := by
  cases place with
  | first => exact ⟨_, .emptyObject h⟩
  | behind =>
    obtain ⟨ms, hs⟩ := h
    exact ⟨_, .object hs⟩
  | next => exact absurd rfl hp

theorem Opened.blank {holes : List Hole} {cs w : List Char} (h : Opened holes cs) (hw : Blank w) :
    Opened holes (cs ++ w) := by
  cases h with
  | nil hw' => exact .nil (hw'.append hw)
  | item h hp hd =>
    rw [List.append_assoc, List.cons_append]
    exact .item h hp (hd.blank hw)
  | member h hp hd hk hw₁ hw₂ =>
    simp only [List.append_assoc, List.cons_append]
    exact .member h hp hd hk hw₁ (hw₂.append hw)

namespace Build

/-- Blanks change nothing. -/
theorem covers_blank {b : Build} {cs w : List Char} (h : b.Covers cs) (hw : Blank w) :
    b.Covers (cs ++ w) := by
  cases h with
  | value h => exact .value (h.blank hw)
  | items h hd =>
    rw [List.append_assoc, List.cons_append]
    exact .items h (hd.blank hw)
  | members h hd =>
    rw [List.append_assoc, List.cons_append]
    exact .members h (hd.blank hw)
  | colon h hp hd hk hw' =>
    simp only [List.append_assoc, List.cons_append]
    exact .colon h hp hd hk (hw'.append hw)
  | whole hw₀ h hw' =>
    rw [List.append_assoc, List.append_assoc]
    exact .whole hw₀ h (hw'.append hw)
  | stopped h => exact .stopped h

/-- A value takes the place where it is awaited. -/
theorem covers_complete {holes : List Hole} {cs ds : List Char} (h : Opened holes cs) {t : Term}
    (ht : t.Spells ds) (v : Source) : (complete v holes).Covers (cs ++ ds) := by
  cases h with
  | nil hw =>
    have hwhole := @Covers.whole v _ _ _ _ hw ht blank_nil
    rw [List.append_nil] at hwhole
    exact hwhole
  | item h hp hd =>
    rw [List.append_assoc, List.cons_append]
    exact .items h (hd.item hp ht)
  | member h hp hd hk hw₁ hw₂ =>
    simp only [List.append_assoc, List.cons_append]
    exact .members h (hd.member hp hk hw₁ hw₂ ht)

/-- A value is begun where one is awaited. -/
theorem covers_begin {holes : List Hole} {cs ds : List Char} (h : Opened holes cs) {x : Lexeme}
    (hx : x.token.Spells ds) : (begin x holes).Covers (cs ++ ds) := by
  obtain ⟨token, start, stop⟩ := x
  cases hx with
  | null => exact covers_complete h .null _
  | true => exact covers_complete h .true _
  | false => exact covers_complete h .false _
  | string hs => exact covers_complete h (.string hs) _
  | number hn => exact covers_complete h (.number hn) _
  | broken => exact .stopped (faulty_stop rfl _ _)
  | mark hm =>
    unfold Scan.mark? at hm
    split at hm <;> cases hm
    · exact .items h blank_nil
    · exact .stopped (faulty_stop rfl _ _)
    · exact .members h blank_nil
    · exact .stopped (faulty_stop rfl _ _)
    · exact .stopped (faulty_stop rfl _ _)
    · exact .stopped (faulty_stop rfl _ _)

theorem covers_stepItems {holes : List Hole} {cs ds es : List Char} (h : Opened holes cs) {place : Place}
    (hd : ItemsOpen place ds) {x : Lexeme} (hx : x.token.Spells es) (start : Nat)
    (done : List (Nat × Source)) :
    (stepItems place start done holes x).Covers (cs ++ '[' :: (ds ++ es)) := by
  have hbegin : place ≠ .behind →
      (begin x (.item start done x.start :: holes)).Covers (cs ++ '[' :: (ds ++ es)) := by
    intro hp
    have hvalue := covers_begin (@Opened.item _ start x.start done _ _ _ h hp hd) hx
    rw [List.append_assoc, List.cons_append] at hvalue
    exact hvalue
  unfold stepItems
  split
  · next hc =>
    rw [hc] at hx
    obtain rfl := hx.eq_of_mark? (c := ']') rfl
    obtain ⟨t, ht⟩ := hd.close (by decide)
    exact covers_complete h ht _
  · next hc =>
    rw [hc] at hx
    obtain rfl := hx.eq_of_mark? (c := ']') rfl
    obtain ⟨t, ht⟩ := hd.close (by decide)
    exact covers_complete h ht _
  · next hc =>
    rw [hc] at hx
    obtain rfl := hx.eq_of_mark? (c := ',') rfl
    exact .items h hd.comma
  · exact .stopped (faulty_stopItems ..)
  · exact .stopped (faulty_stopItems ..)
  · exact hbegin (by decide)
  · exact hbegin (by decide)

theorem covers_stepMembers {holes : List Hole} {cs ds es : List Char} (h : Opened holes cs)
    {place : Place} (hd : MembersOpen place ds) {x : Lexeme} (hx : x.token.Spells es) (start : Nat)
    (done : List (Key × Source)) :
    (stepMembers place start done holes x).Covers (cs ++ '\x7b' :: (ds ++ es)) := by
  unfold stepMembers
  split
  · next hc =>
    rw [hc] at hx
    obtain rfl := hx.eq_of_mark? (c := '\x7d') rfl
    obtain ⟨t, ht⟩ := hd.close (by decide)
    exact covers_complete h ht _
  · next hc =>
    rw [hc] at hx
    obtain rfl := hx.eq_of_mark? (c := '\x7d') rfl
    obtain ⟨t, ht⟩ := hd.close (by decide)
    exact covers_complete h ht _
  · next hc =>
    rw [hc] at hx
    obtain rfl := hx.eq_of_mark? (c := ',') rfl
    exact .members h hd.comma
  · exact .stopped (faulty_stopMembers ..)
  · exact .stopped (faulty_stopMembers ..)
  · next name hp hc =>
    rw [hc] at hx
    obtain ⟨k, hk⟩ := hx.stringSpells
    have hcolon := @Covers.colon _ start done name _ _ _ _ _ _ h hp hd hk blank_nil
    rw [List.append_nil] at hcolon
    exact hcolon
  · exact .stopped (faulty_stopMembers ..)
  · exact .stopped (faulty_stopMembers ..)

theorem covers_stepColon {holes : List Hole} {place : Place} {k : Option String} {cs ds ks w es : List Char}
    (h : Opened holes cs) (hp : place ≠ .behind) (hd : MembersOpen place ds) (hk : StringSpells k ks)
    (hw : Blank w) {x : Lexeme} (hx : x.token.Spells es) (start : Nat) (done : List (Key × Source))
    (name : Except Fault String) :
    (stepColon start done name holes x).Covers (cs ++ '\x7b' :: (ds ++ (ks ++ (w ++ es)))) := by
  unfold stepColon
  split
  · next hc =>
    rw [hc] at hx
    obtain rfl := hx.eq_of_mark? (c := ':') rfl
    exact .value (.member h hp hd hk hw blank_nil)
  · exact .stopped (faulty_stopColon ..)
  · exact .stopped (faulty_stopColon ..)

/-- One lexeme more is read. -/
theorem covers_step {b : Build} {cs es : List Char} (h : b.Covers cs) {x : Lexeme}
    (hx : x.token.Spells es) : (b.step x).Covers (cs ++ es) := by
  cases h with
  | value h => exact covers_begin h hx
  | items h hd =>
    rw [List.append_assoc, List.cons_append]
    exact covers_stepItems h hd hx _ _
  | members h hd =>
    rw [List.append_assoc, List.cons_append]
    exact covers_stepMembers h hd hx _ _
  | colon h hp hd hk hw =>
    simp only [List.append_assoc, List.cons_append]
    exact covers_stepColon h hp hd hk hw hx _ _ _
  | whole hw h hw' => exact .stopped (.inr rfl)
  | stopped h => exact .stopped h

/-- The builder reads what is cut into lexemes. -/
theorem covers_lexed {ls : List Lexeme} {cs : List Char} (h : Lexed ls cs) :
    (ls.reverse.foldl step empty).Covers cs := by
  induction h with
  | nil => exact .value (.nil blank_nil)
  | blank h hw ih => exact covers_blank ih hw
  | lexeme h hx ih =>
    rw [List.reverse_cons, List.foldl_append]
    exact covers_step ih hx

/-- At the end of a text, its value is read or its document has a fault. -/
theorem faulty_finish {b : Build} {cs : List Char} (h : b.Covers cs) (size : Nat) :
    (∃ (t : Term) (w ds w' : List Char), Blank w ∧ t.Spells ds ∧ Blank w' ∧ cs = w ++ (ds ++ w')) ∨
      (b.finish size).Faulty := by
  cases h with
  | whole hw h hw' => exact .inl ⟨_, _, _, _, hw, h, hw', rfl⟩
  | value h => exact .inr (faulty_stop rfl _ _)
  | @items place start done holes cs ds h hd =>
    refine .inr ?_
    cases place <;> exact faulty_stopItems ..
  | @members place start done holes cs ds h hd =>
    refine .inr ?_
    cases place <;> exact faulty_stopMembers ..
  | colon h hp hd hk hw => exact .inr (faulty_stopColon ..)
  | stopped h => exact .inr h

end Build

/-- A text says a term if and only if its document has no fault. -/
theorem exists_hasText_iff (text : String) :
    (∃ t : Term, t.HasText text) ↔ ¬ (Document.ofText text).Faulty := by
  constructor
  · rintro ⟨t, ht⟩
    obtain ⟨v, hv, hd⟩ := ofText_of_hasText ht
    rw [hd]
    rintro (h | h)
    · have hnone := skipFault?_of_says hv
      rw [hnone] at h
      cases h
    · cases h
  · intro h
    have hcovers := Build.covers_lexed (lexed_scan text)
    rw [List.reverse_reverse] at hcovers
    rcases Build.faulty_finish hcovers text.utf8ByteSize with ht | hf
    · exact ht
    · exact absurd hf h

end Json
end ApiReference
