/-
# The markup of a page

A page is markup with data between, and data is escaped, so it has none of the
characters that make tags and end attributes (`not_isMark_of_mem_escape`). Data stands
between tags, or in a tag as part of an attribute that is blanked out when tags are
compared. So two pages with as much to say have the same tags, whatever the data is
(`tags_page`): no data can bring in a tag, end one, or end an attribute.

`Alike` says how the pieces of two such pages go together, and is shown of the page part
by part; what it means for the tags is shown once, of all its cases (`Alike.sameTags`).

Key definitions: `IsMark`, `tags`, `blank`, `Closed`, `Piece.template`,
`ModuleDoc.shape`, `Alike`.
Key theorems: `tags_append`, `blank_attribute`, `Alike.sameTags`, `alike_pieces`.
-/
import ApiReference.Output.Html

namespace ApiReference

/-! ### Shapes -/

/-- What a function has to show, without its texts. -/
structure FunctionShape where
  isNative : Bool
  isDescribed : Bool
  parameters : Nat
  isTyped : Bool
  deriving DecidableEq

/-- The shape of a function. -/
def FunctionDoc.shape (f : FunctionDoc) : FunctionShape :=
  ⟨f.isNative, f.description ≠ "", f.parameters.length, f.returns.isSome⟩

/-- What a module has to show, without its texts. -/
structure ModuleShape where
  isDescribed : Bool
  functions : List FunctionShape
  deriving DecidableEq

/-- The shape of a module. -/
def ModuleDoc.shape (m : ModuleDoc) : ModuleShape :=
  ⟨m.description ≠ "", m.functions.map FunctionDoc.shape⟩

namespace Html

/-! ### Marks -/

/-- The characters that begin a tag, end a tag, and begin or end a value in a tag. -/
def IsMark (c : Char) : Prop := c = '<' ∨ c = '>' ∨ c = '"'

instance (c : Char) : Decidable (IsMark c) :=
  inferInstanceAs (Decidable (c = '<' ∨ c = '>' ∨ c = '"'))

/-- The marks among characters, in order. -/
def marks (cs : List Char) : List Char := cs.filter (IsMark ·)

theorem marks_eq_nil_iff {cs : List Char} : marks cs = [] ↔ ∀ c ∈ cs, ¬ IsMark c := by
  rw [marks, List.filter_eq_nil_iff]
  simp only [decide_eq_true_eq]

theorem mem_substitute {c d : Char} {replacement text : String}
    (h : d ∈ (substitute c replacement text).toList) :
    (d ∈ text.toList ∧ d ≠ c) ∨ d ∈ replacement.toList := by
  rw [substitute, String.toList_ofList] at h
  obtain ⟨e, he, hd⟩ := List.mem_flatMap.mp h
  by_cases hc : e = c
  · rw [if_pos hc] at hd
    exact .inr hd
  · rw [if_neg hc, List.mem_singleton] at hd
    subst hd
    exact .inl ⟨he, hc⟩

/-- What is in a text after replacements: what was there and has not been replaced, and
what has been put in. -/
theorem mem_foldl_substitute {rs : List (Char × String)} {d : Char} {text : String}
    (h : d ∈ (rs.foldl (fun text r => substitute r.1 r.2 text) text).toList) :
    (d ∈ text.toList ∧ ∀ r ∈ rs, d ≠ r.1) ∨ ∃ r ∈ rs, d ∈ r.2.toList := by
  induction rs generalizing text with
  | nil => exact .inl ⟨h, fun _ hr => absurd hr List.not_mem_nil⟩
  | cons r rs ih =>
    rw [List.foldl_cons] at h
    rcases ih h with ⟨hd, hrs⟩ | ⟨r', hr', hd⟩
    · rcases mem_substitute hd with ⟨hd, hr⟩ | hd
      · exact .inl ⟨hd, List.forall_mem_cons.mpr ⟨hr, hrs⟩⟩
      · exact .inr ⟨r, List.mem_cons_self .., hd⟩
    · exact .inr ⟨r', List.mem_cons_of_mem _ hr', hd⟩

/-- Data has no marks. -/
theorem not_isMark_of_mem_escape {c : Char} {text : String} (h : c ∈ (escape text).toList) :
    ¬ IsMark c := by
  have hkept : ∀ c, IsMark c → ∃ r ∈ replacements, c = r.1 := by
    rintro c (rfl | rfl | rfl) <;> decide
  have hnew : ∀ r ∈ replacements, marks r.2.toList = [] := by decide
  intro hc
  rcases mem_foldl_substitute h with ⟨-, hr⟩ | ⟨r, hr, hcr⟩
  · obtain ⟨r, hmem, hcr⟩ := hkept c hc
    exact hr r hmem hcr
  · exact marks_eq_nil_iff.mp (hnew r hr) c hcr hc

/-! ### Tags -/

/-- The characters up to the next `>`, if there is one. -/
def toClose? : List Char → Option (List Char)
  | [] => none
  | c :: cs => if c = '>' then some [c] else (toClose? cs).map (c :: ·)

/-- The tags: from each `<` to the next `>`. -/
def tags : List Char → List (List Char)
  | [] => []
  | c :: cs => (if c = '<' then ((toClose? cs).map (c :: ·)).toList else []) ++ tags cs

/-- Every `<` has a `>` behind it. -/
inductive Closed : List Char → Prop
  | nil : Closed []
  | cons {c : Char} {cs : List Char} (h : c = '<' → '>' ∈ cs) (hs : Closed cs) : Closed (c :: cs)

theorem closed_cons (c : Char) (cs : List Char) : Closed (c :: cs) ↔ (c = '<' → '>' ∈ cs) ∧ Closed cs :=
  ⟨fun | .cons h hs => ⟨h, hs⟩, fun h => .cons h.1 h.2⟩

instance Closed.decidable : ∀ cs : List Char, Decidable (Closed cs)
  | [] => .isTrue .nil
  | c :: cs =>
    have := Closed.decidable cs
    decidable_of_iff _ (closed_cons c cs).symm

theorem Closed.append {xs ys : List Char} (hx : Closed xs) (hy : Closed ys) : Closed (xs ++ ys) := by
  induction hx with
  | nil => exact hy
  | cons h _ ih => exact .cons (fun hc => List.mem_append_left _ (h hc)) ih

theorem closed_of_not_mem {cs : List Char} (h : '<' ∉ cs) : Closed cs := by
  induction cs with
  | nil => exact .nil
  | cons c cs ih =>
    rw [List.mem_cons, not_or] at h
    exact .cons (fun hc => absurd hc.symm h.1) (ih h.2)

theorem tags_of_not_mem {cs : List Char} (h : '<' ∉ cs) : tags cs = [] := by
  induction cs with
  | nil => rfl
  | cons c cs ih =>
    rw [List.mem_cons, not_or] at h
    rw [tags, if_neg (Ne.symm h.1), ih h.2, List.append_nil]

theorem toClose?_append {xs : List Char} (h : '>' ∈ xs) (ys : List Char) :
    toClose? (xs ++ ys) = toClose? xs := by
  induction xs with
  | nil => exact absurd h List.not_mem_nil
  | cons c xs ih =>
    rw [List.cons_append, toClose?, toClose?]
    by_cases hc : c = '>'
    · rw [if_pos hc, if_pos hc]
    · rw [if_neg hc, if_neg hc, ih ((List.mem_cons.mp h).resolve_left (Ne.symm hc))]

/-- What follows closed tags adds its own. -/
theorem tags_append {xs : List Char} (h : Closed xs) (ys : List Char) :
    tags (xs ++ ys) = tags xs ++ tags ys := by
  induction h with
  | nil => rfl
  | @cons c xs h _ ih =>
    rw [List.cons_append, tags, tags, ih, List.append_assoc]
    by_cases hc : c = '<'
    · rw [if_pos hc, if_pos hc, toClose?_append (h hc)]
    · rw [if_neg hc, if_neg hc]

theorem toClose?_of_not_mem {cs : List Char} (h : '>' ∉ cs) : toClose? (cs ++ ['>']) = some (cs ++ ['>']) := by
  induction cs with
  | nil => rfl
  | cons c cs ih =>
    rw [List.mem_cons, not_or] at h
    rw [List.cons_append, toClose?, if_neg (Ne.symm h.1), ih h.2, Option.map_some]

/-- A single tag. -/
theorem tags_single {cs : List Char} (hlt : '<' ∉ cs) (hgt : '>' ∉ cs) :
    tags ('<' :: (cs ++ ['>'])) = ['<' :: (cs ++ ['>'])] := by
  rw [tags, if_pos rfl, toClose?_of_not_mem hgt, tags_of_not_mem]
  · rfl
  · rw [List.mem_append, not_or]
    exact ⟨hlt, by decide⟩

/-! ### Values that are blanked out -/

/-- The part of a tag before a value is that before the value of `id` or `href`. -/
def Blanked (part : List Char) : Prop := " id=".toList <:+ part ∨ " href=".toList <:+ part

instance (part : List Char) : Decidable (Blanked part) :=
  inferInstanceAs (Decidable (" id=".toList <:+ part ∨ " href=".toList <:+ part))

/-- The parts of a tag, by turns outside and inside of quotes, without the values of `id`
and `href`. -/
def blankValues : List (List Char) → List (List Char)
  | part :: value :: parts => part :: (if Blanked part then [] else value) :: blankValues parts
  | parts => parts

/-- A tag with the values of `id` and `href` blanked out. -/
def blank (tag : List Char) : List Char := ['"'].intercalate (blankValues (tag.splitOn '"'))

/-- A tag with one value, in parts. -/
theorem splitOn_attribute {part value rest : List Char} (hp : '"' ∉ part) (hv : '"' ∉ value) (hr : '"' ∉ rest) :
    (part ++ '"' :: (value ++ '"' :: rest)).splitOn '"' = [part, value, rest] := by
  have hparts : part ++ '"' :: (value ++ '"' :: rest) = ['"'].intercalate [part, value, rest] := by
    simp [List.intercalate]
  rw [hparts]
  refine List.splitOn_intercalate '"' ?_ (by simp)
  simp only [List.forall_mem_cons, List.not_mem_nil, false_imp_iff, implies_true, and_true]
  exact ⟨hp, hv, hr⟩

/-- A blanked value is not seen. -/
theorem blank_attribute {part value rest : List Char} (hb : Blanked part) (hp : '"' ∉ part)
    (hv : '"' ∉ value) (hr : '"' ∉ rest) :
    blank (part ++ '"' :: (value ++ '"' :: rest)) = part ++ '"' :: '"' :: rest := by
  rw [blank, splitOn_attribute hp hv hr, blankValues, if_pos hb, blankValues]
  · simp [List.intercalate]
  · simp

/-- There are no marks in a tag with one value but the quotes. -/
theorem not_mem_attribute {part value : List Char} (hp : ∀ c ∈ part, ¬ IsMark c) (hv : ∀ c ∈ value, ¬ IsMark c)
    {c : Char} (hc : IsMark c) (hquote : c ≠ '"') : c ∉ part ++ '"' :: (value ++ ['"']) := by
  intro hmem
  simp only [List.mem_append, List.mem_cons, List.not_mem_nil, or_false] at hmem
  rcases hmem with hmem | hmem | hmem | hmem
  · exact hp c hmem hc
  · exact hquote hmem
  · exact hv c hmem hc
  · exact hquote hmem

/-- A tag with one value. -/
theorem tags_attribute {part value : List Char} (hp : ∀ c ∈ part, ¬ IsMark c) (hv : ∀ c ∈ value, ¬ IsMark c) :
    tags ('<' :: (part ++ '"' :: (value ++ ['"', '>']))) = ['<' :: (part ++ '"' :: (value ++ ['"', '>']))] := by
  have hlt := not_mem_attribute hp hv (show IsMark '<' by decide) (by decide)
  have hgt := not_mem_attribute hp hv (show IsMark '>' by decide) (by decide)
  have hsingle := tags_single hlt hgt
  have hassoc : part ++ '"' :: (value ++ ['"']) ++ ['>'] = part ++ '"' :: (value ++ ['"', '>']) := by simp
  rwa [hassoc] at hsingle

/-! ### Pieces -/

/-- A piece without its data. -/
def Piece.template : Piece → Piece
  | .markup text => .markup text
  | .data _ => .data ""

/-- The marks in a piece: those of markup. -/
def Piece.marks : Piece → List Char
  | .markup text => Html.marks text.toList
  | .data _ => []

/-- The characters of pieces. -/
def chars (ps : List Piece) : List Char := ps.flatMap (·.text.toList)

theorem chars_append (ps qs : List Piece) : chars (ps ++ qs) = chars ps ++ chars qs :=
  List.flatMap_append

theorem chars_around (before data after : String) : chars (around before data after) =
    before.toList ++ ((escape data).toList ++ after.toList) := by
  simp [chars, around, Piece.text]

theorem toList_page (project : String) (modules : List ModuleDoc) :
    (page project modules).toList = chars (pieces project modules) := by
  rw [page, String.toList_join, chars, List.flatMap_map]

theorem marks_piece (p : Piece) : marks p.text.toList = p.marks := by
  cases p with
  | markup text => rfl
  | data text =>
    rw [Piece.text, Piece.marks, marks_eq_nil_iff]
    exact fun c hc => not_isMark_of_mem_escape hc

/-- All marks of a page are in its markup. -/
theorem marks_page (project : String) (modules : List ModuleDoc) :
    marks (page project modules).toList = (pieces project modules).flatMap Piece.marks := by
  rw [toList_page, marks, chars, List.filter_flatMap]
  exact congrArg (List.flatMap · _) (funext marks_piece)

/-- Pieces that differ in their data. Data stands outside of tags, or after a prefix `v`
in a value that is blanked out. -/
inductive Alike : List Piece → List Piece → Prop
  | nil : Alike [] []
  | markup {text : String} (h : Closed text.toList) : Alike [.markup text] [.markup text]
  | data (a b : String) : Alike [.data a] [.data b]
  | value {before after : String} (x part v y : List Char) (a b : String)
    (hbefore : before.toList = x ++ '<' :: (part ++ '"' :: v)) (hafter : after.toList = '"' :: '>' :: y)
    (hx : Closed x) (hy : Closed y) (hpart : Blanked part) (hp : marks part = []) (hv : marks v = []) :
    Alike (around before a after) (around before b after)
  | append {ps qs ps' qs' : List Piece} (h : Alike ps qs) (h' : Alike ps' qs') :
    Alike (ps ++ ps') (qs ++ qs')

/-- Texts whose tags are closed, and the same but for blanked values. -/
structure SameTags (xs ys : List Char) : Prop where
  left : Closed xs
  right : Closed ys
  tags : (tags xs).map blank = (tags ys).map blank

theorem SameTags.append {xs ys xs' ys' : List Char} (h : SameTags xs ys) (h' : SameTags xs' ys') :
    SameTags (xs ++ xs') (ys ++ ys') where
  left := h.left.append h'.left
  right := h.right.append h'.right
  tags := by
    rw [tags_append h.left, tags_append h.right, List.map_append, List.map_append, h.tags, h'.tags]

theorem SameTags.refl {xs : List Char} (h : Closed xs) : SameTags xs xs := ⟨h, h, rfl⟩

/-- A tag with a blanked value, whatever the value is. -/
theorem blank_tags_attribute {part value : List Char} (hb : Blanked part) (hp : ∀ c ∈ part, ¬ IsMark c)
    (hv : ∀ c ∈ value, ¬ IsMark c) :
    (tags ('<' :: (part ++ '"' :: (value ++ ['"', '>'])))).map blank =
      ['<' :: (part ++ ['"', '"', '>'])] := by
  have hopen : '"' ∉ '<' :: part := by
    rw [List.mem_cons, not_or]
    exact ⟨by decide, fun h => hp _ h (by decide)⟩
  have hclosed : '"' ∉ value := fun h => hv _ h (by decide)
  have hb' : Blanked ('<' :: part) := hb.imp (·.trans (List.suffix_cons ..)) (·.trans (List.suffix_cons ..))
  have hblank := blank_attribute hb' hopen hclosed (show '"' ∉ ['>'] by decide)
  rw [tags_attribute hp hv, List.map_singleton]
  exact congrArg ([·]) hblank

theorem closed_attribute {part value : List Char} (hp : ∀ c ∈ part, ¬ IsMark c)
    (hv : ∀ c ∈ value, ¬ IsMark c) : Closed ('<' :: (part ++ '"' :: (value ++ ['"', '>']))) := by
  refine .cons (fun _ => by simp) (closed_of_not_mem ?_)
  simp only [List.mem_append, List.mem_cons, List.not_mem_nil, or_false, not_or]
  exact ⟨fun h => hp _ h (by decide), by decide, fun h => hv _ h (by decide), by decide, by decide⟩

/-- Data outside of tags adds none. -/
theorem sameTags_data (a b : String) : SameTags (escape a).toList (escape b).toList := by
  have hlt : ∀ text, '<' ∉ (escape text).toList := by
    intro text h
    exact not_isMark_of_mem_escape h (by decide)
  refine ⟨closed_of_not_mem (hlt a), closed_of_not_mem (hlt b), ?_⟩
  rw [tags_of_not_mem (hlt a), tags_of_not_mem (hlt b)]

/-- Alike pieces have the same tags. -/
theorem Alike.sameTags {ps qs : List Piece} (h : Alike ps qs) : SameTags (chars ps) (chars qs) := by
  induction h with
  | nil => exact .refl .nil
  | @markup text h =>
    have hc : chars [.markup text] = text.toList := by simp [chars, Piece.text]
    rw [hc]
    exact .refl h
  | data a b =>
    have hc : ∀ text, chars [.data text] = (escape text).toList := fun text => by simp [chars, Piece.text]
    rw [hc, hc]
    exact sameTags_data a b
  | @value before after x part v y a b hbefore hafter hx hy hpart hp hv =>
    rw [marks_eq_nil_iff] at hp hv
    have hvalue : ∀ text, ∀ c ∈ v ++ (escape text).toList, ¬ IsMark c := by
      intro text c hc
      rcases List.mem_append.mp hc with hc | hc
      · exact hv c hc
      · exact not_isMark_of_mem_escape hc
    have hchars : ∀ text, chars (around before text after) =
        x ++ ('<' :: (part ++ '"' :: (v ++ (escape text).toList ++ ['"', '>'])) ++ y) := by
      intro text
      rw [chars_around, hbefore, hafter]
      simp
    rw [hchars, hchars]
    refine (SameTags.refl hx).append (SameTags.append ?_ (.refl hy))
    refine ⟨closed_attribute hp (hvalue a), closed_attribute hp (hvalue b), ?_⟩
    rw [blank_tags_attribute hpart hp (hvalue a), blank_tags_attribute hpart hp (hvalue b)]
  | append _ _ ih ih' =>
    rw [chars_append, chars_append]
    exact ih.append ih'

/-- Alike pieces are one template. -/
theorem Alike.template {ps qs : List Piece} (h : Alike ps qs) :
    ps.map Piece.template = qs.map Piece.template := by
  induction h with
  | nil => rfl
  | markup h => rfl
  | data a b => rfl
  | value x part v y a b hbefore hafter hx hy hpart hp hv => rfl
  | append _ _ ih ih' => rw [List.map_append, List.map_append, ih, ih']

/-! ### Pages of one shape -/

theorem alike_around (before after a b : String) (hb : Closed before.toList) (ha : Closed after.toList) :
    Alike (around before a after) (around before b after) :=
  (Alike.markup hb).append ((Alike.data a b).append (.markup ha))

theorem alike_flatMap {α β : Type} {f : α → List Piece} {shape : α → β} {as bs : List α}
    (h : as.map shape = bs.map shape) (hf : ∀ a b, shape a = shape b → Alike (f a) (f b)) :
    Alike (as.flatMap f) (bs.flatMap f) := by
  induction as generalizing bs with
  | nil =>
    rw [List.map_nil, eq_comm, List.map_eq_nil_iff] at h
    rw [h]
    exact .nil
  | cons a as ih =>
    cases bs with
    | nil => cases h
    | cons b bs =>
      rw [List.map_cons, List.map_cons, List.cons.injEq] at h
      rw [List.flatMap_cons, List.flatMap_cons]
      exact (hf a b h.1).append (ih h.2)

theorem alike_description {a b : String} (h : decide (a ≠ "") = decide (b ≠ "")) :
    Alike (descriptionPieces a) (descriptionPieces b) := by
  rw [decide_eq_decide, ne_eq, ne_eq, Decidable.not_iff_not] at h
  rw [descriptionPieces, descriptionPieces]
  by_cases ha : a = ""
  · rw [if_pos ha, if_pos (h.mp ha)]
    exact .nil
  · rw [if_neg ha, if_neg (fun hb => ha (h.mpr hb))]
    exact alike_around _ _ a b (by decide) (by decide)

theorem alike_parameter (p q : ParameterDoc) : Alike (parameterPieces p) (parameterPieces q) := by
  refine (alike_around _ _ p.name q.name (by decide) (by decide)).append ?_
  exact (Alike.data p.shownType q.shownType).append (.markup (by decide))

theorem alike_parameters {ps qs : List ParameterDoc} (h : ps.length = qs.length) :
    Alike (parametersPieces ps) (parametersPieces qs) := by
  rw [parametersPieces, parametersPieces]
  by_cases hp : ps = []
  · have hq : qs = [] := List.eq_nil_of_length_eq_zero (by rw [← h, hp, List.length_nil])
    rw [if_pos hp, if_pos hq]
    exact .nil
  · have hq : qs ≠ [] := by
      rintro rfl
      exact hp (List.eq_nil_of_length_eq_zero h)
    rw [if_neg hp, if_neg hq]
    have hmap : ps.map (fun _ => ()) = qs.map (fun _ => ()) := by
      rw [List.map_const', List.map_const', h]
    exact ((Alike.markup (by decide)).append (alike_flatMap hmap fun p q _ => alike_parameter p q)).append
      (.markup (by decide))

theorem alike_return {a b : Option String} (h : a.isSome = b.isSome) :
    Alike (returnPieces a) (returnPieces b) := by
  cases a with
  | none =>
    cases b with
    | none => exact .nil
    | some b => cases h
  | some a =>
    cases b with
    | none => cases h
    | some b => exact alike_around _ _ a b (by decide) (by decide)

theorem alike_function {f g : FunctionDoc} (h : f.shape = g.shape) :
    Alike (functionPieces f) (functionPieces g) := by
  rw [FunctionDoc.shape, FunctionDoc.shape, FunctionShape.mk.injEq] at h
  obtain ⟨hn, hd, hp, hr⟩ := h
  have hnative : Alike (if f.isNative then [.markup " <span class=\"tag tag-native\">native</span>"] else [])
      (if g.isNative then [.markup " <span class=\"tag tag-native\">native</span>"] else []) := by
    rw [hn]
    cases g.isNative with
    | true => exact .markup (by decide)
    | false => exact .nil
  have hhead := alike_around "<h3><code>" "</code>" f.signature g.signature (by decide) (by decide)
  exact ((((hhead.append hnative).append (.markup (by decide))).append (alike_description hd)).append
    (alike_parameters hp)).append (alike_return hr)

theorem alike_module {m n : ModuleDoc} (h : m.shape = n.shape) : Alike (modulePieces m) (modulePieces n) := by
  rw [ModuleDoc.shape, ModuleDoc.shape, ModuleShape.mk.injEq] at h
  obtain ⟨hd, hf⟩ := h
  have hopen : Alike (around "<section id=\"" (sectionId m) "\">\n")
      (around "<section id=\"" (sectionId n) "\">\n") :=
    .value [] "section id=".toList [] ['\n'] _ _ (by decide) (by decide) .nil (by decide) (by decide)
      (by decide) (by decide)
  have hnone : m.functions = [] ↔ n.functions = [] := by
    rw [← List.map_eq_nil_iff (f := FunctionDoc.shape), hf, List.map_eq_nil_iff]
  have hempty : Alike (if m.functions = [] then [.markup "<p><em>No functions.</em></p>\n"] else [])
      (if n.functions = [] then [.markup "<p><em>No functions.</em></p>\n"] else []) := by
    by_cases hm : m.functions = []
    · rw [if_pos hm, if_pos (hnone.mp hm)]
      exact .markup (by decide)
    · rw [if_neg hm, if_neg (fun hn => hm (hnone.mpr hn))]
      exact .nil
  have hname := alike_around "<h2>" "</h2>\n" m.name n.name (by decide) (by decide)
  have hfunctions := alike_flatMap hf fun _ _ => alike_function
  exact ((((hopen.append hname).append (alike_description hd)).append hempty).append hfunctions).append
    (.markup (by decide))

theorem alike_link (m n : ModuleDoc) : Alike (linkPieces m) (linkPieces n) := by
  have hopen : Alike (around "  <li><a href=\"#" (sectionId m) "\">")
      (around "  <li><a href=\"#" (sectionId n) "\">") :=
    .value "  <li>".toList "a href=".toList ['#'] [] _ _ (by decide) (by decide) (by decide) .nil
      (by decide) (by decide) (by decide)
  exact hopen.append ((Alike.data m.name n.name).append (.markup (by decide)))

theorem alike_index {ms ns : List ModuleDoc} (h : ms.map ModuleDoc.shape = ns.map ModuleDoc.shape) :
    Alike (indexPieces ms) (indexPieces ns) := by
  have hnone : ms = [] ↔ ns = [] := by
    rw [← List.map_eq_nil_iff (f := ModuleDoc.shape), h, List.map_eq_nil_iff]
  rw [indexPieces, indexPieces]
  by_cases hm : ms = []
  · rw [if_pos hm, if_pos (hnone.mp hm)]
    exact .nil
  · rw [if_neg hm, if_neg (fun hn => hm (hnone.mpr hn))]
    exact ((Alike.markup (by decide)).append (alike_flatMap h fun m n _ => alike_link m n)).append
      (.markup (by decide))

/-- Character by character, which `decide` would not do for a long text. -/
theorem of_literal {P : List Char → Prop} {text : String} {cs : List Char} (h : text = String.ofList cs)
    (hp : P cs) : P text.toList := by
  rw [h, String.toList_ofList]
  exact hp

theorem of_lines {P : List Char → Prop} (hnil : P []) (hfeed : P ['\n'])
    (happend : ∀ {xs ys}, P xs → P ys → P (xs ++ ys)) {lines : List String} (h : ∀ l ∈ lines, P l.toList) :
    P (unlines lines).toList := by
  induction lines with
  | nil => exact hnil
  | cons l lines ih =>
    rw [List.forall_mem_cons] at h
    have hcons : (unlines (l :: lines)).toList = l.toList ++ (['\n'] ++ (unlines lines).toList) := by
      simp [unlines]
    rw [hcons]
    exact happend h.1 (happend hfeed (ih h.2))

theorem closed_style : Closed style.toList := by
  refine of_lines .nil (by decide) Closed.append ?_
  simp only [List.forall_mem_cons, List.not_mem_nil, false_imp_iff, implies_true, and_true]
  refine ⟨?_, ?_, ?_, ?_, ?_, ?_, ?_, ?_⟩ <;> exact of_literal rfl (by decide +kernel)

/-- Pages of one shape are alike. -/
theorem alike_pieces (project project' : String) {ms ns : List ModuleDoc}
    (h : ms.map ModuleDoc.shape = ns.map ModuleDoc.shape) :
    Alike (pieces project ms) (pieces project' ns) := by
  have hopen : Alike [.markup "<!DOCTYPE html>\n<html>\n<head>\n<meta charset=\"utf-8\">\n"]
      [.markup "<!DOCTYPE html>\n<html>\n<head>\n<meta charset=\"utf-8\">\n"] := .markup (by decide)
  have htitle := alike_around "<title>" " API Documentation</title>\n" project project' (by decide)
    (by decide)
  have hstyle : Alike [.markup style, .markup "</head>\n<body>\n"]
      [.markup style, .markup "</head>\n<body>\n"] :=
    (Alike.markup closed_style).append (.markup (by decide))
  have hheading := alike_around "<h1>" "</h1>\n" project project' (by decide) (by decide)
  have hmodules := alike_flatMap h fun _ _ => alike_module
  exact (((((hopen.append htitle).append hstyle).append hheading).append (alike_index h)).append
    hmodules).append (.markup (by decide))

/-- The tags of a page depend on the shape of the modules alone, once the values of `id` and
`href` are blanked out. So does its template, and all marks of the page are in the
template's markup. -/
theorem tags_page (project project' : String) {modules modules' : List ModuleDoc}
    (h : modules.map ModuleDoc.shape = modules'.map ModuleDoc.shape) :
    (tags (page project modules).toList).map blank = (tags (page project' modules').toList).map blank ∧
      (pieces project modules).map Piece.template = (pieces project' modules').map Piece.template ∧
      marks (page project modules).toList = (pieces project modules).flatMap Piece.marks := by
  have halike := alike_pieces project project' h
  rw [toList_page project modules, toList_page project' modules']
  exact ⟨halike.sameTags.tags, halike.template, toList_page project modules ▸ marks_page project modules⟩

/-- A module of texts that try to be markup. -/
def intrusive : ModuleDoc :=
  ⟨"\"><script>", "</section>", [⟨"f\" id=\"", "", [⟨"<td>", some "List<Int>", ""⟩], true, some "&lt;"⟩]⟩

/-- A module of the same shape. -/
def harmless : ModuleDoc := ⟨"m", "A module.", [⟨"f", "", [⟨"p", none, ""⟩], true, some "Int"⟩]⟩

theorem tags_page_intrusive : [intrusive].map ModuleDoc.shape = [harmless].map ModuleDoc.shape ∧
    (tags (page "<!--" [intrusive]).toList).map blank = (tags (page "P" [harmless]).toList).map blank :=
  ⟨by decide, (tags_page "<!--" "P" (by decide)).1⟩

end Html
end ApiReference
