/-
# Where the links of a page lead

A link names an id, and the element it leads to is the first one of the page that has the
id. The ids of a page are those of its sections, one of each module (`linking_page`), and
data adds none. So a link leads to the section of the first module with the anchor of its
own (`arrive?_pageFrom`): to its own section if no module before has that anchor, and
different names do not make different anchors (`follow?_colliding`).

Key definitions: `attribute?`, `values`, `arrive?`, `follow?`, `Linking`, `pageFrom`.
Key theorems: `escape_sectionId`, `arrive?_append`, `linking_module`, `linking_page`,
`follow?_eq`, `follow?_page`.
-/
import ApiReference.Proofs.Output.Markup
import Mathlib.Data.List.Basic
import Mathlib.Data.List.TakeWhile

namespace ApiReference
namespace Html

/-! ### Attributes -/

/-- A part of a tag ends with the name of an attribute, before its value. -/
def Names (name : String) (part : List Char) : Prop := ' ' :: (name.toList ++ ['=']) <:+ part

instance (name : String) (part : List Char) : Decidable (Names name part) :=
  inferInstanceAs (Decidable (' ' :: (name.toList ++ ['=']) <:+ part))

/-- The values of an attribute in the parts of a tag, by turns outside and inside of quotes. -/
def valuesIn (name : String) : List (List Char) → List (List Char)
  | part :: value :: parts => if Names name part then value :: valuesIn name parts else valuesIn name parts
  | _ => []

/-- The value of an attribute of a tag. -/
def attribute? (name : String) (tag : List Char) : Option (List Char) :=
  (valuesIn name (tag.splitOn '"')).head?

/-- The values of an attribute in the tags of a text, in order. -/
def values (name : String) (cs : List Char) : List (List Char) := (tags cs).filterMap (attribute? name)

theorem values_append (name : String) {xs : List Char} (h : Closed xs) (ys : List Char) :
    values name (xs ++ ys) = values name xs ++ values name ys := by
  rw [values, tags_append h, List.filterMap_append, values, values]

theorem values_of_not_mem (name : String) {cs : List Char} (h : '<' ∉ cs) : values name cs = [] := by
  rw [values, tags_of_not_mem h, List.filterMap_nil]

/-- A tag with one value. -/
def tagWith (part value : List Char) : List Char := '<' :: (part ++ '"' :: (value ++ ['"', '>']))

section Tag
variable {part value : List Char} (hp : ∀ c ∈ part, ¬ IsMark c) (hv : ∀ c ∈ value, ¬ IsMark c)
include hp hv

theorem attribute?_tagWith (name : String) :
    attribute? name (tagWith part value) = if Names name ('<' :: part) then some value else none := by
  have hopen : '"' ∉ '<' :: part := by
    rw [List.mem_cons, not_or]
    exact ⟨by decide, fun h => hp _ h (by decide)⟩
  have hclosed : '"' ∉ value := fun h => hv _ h (by decide)
  have hsplit := splitOn_attribute hopen hclosed (show '"' ∉ ['>'] by decide)
  rw [attribute?, tagWith, ← List.cons_append, hsplit, valuesIn]
  split <;> rfl

theorem values_tagWith (name : String) :
    values name (tagWith part value) = if Names name ('<' :: part) then [value] else [] := by
  have hattribute := attribute?_tagWith hp hv name
  have htags : tags (tagWith part value) = [tagWith part value] := tags_attribute hp hv
  rw [values, htags]
  by_cases hn : Names name ('<' :: part)
  · rw [if_pos hn] at hattribute
    rw [if_pos hn, List.filterMap_cons_some hattribute, List.filterMap_nil]
  · rw [if_neg hn] at hattribute
    rw [if_neg hn, List.filterMap_cons_none hattribute, List.filterMap_nil]

end Tag

/-! ### Following a link -/

/-- The tag at the start of a text. -/
def tagAt? : List Char → Option (List Char)
  | [] => none
  | c :: cs => if c = '<' then (toClose? cs).map (c :: ·) else none

/-- The text from its first tag with an id on. -/
def arrive? (id : List Char) : List Char → Option (List Char)
  | [] => none
  | c :: cs => if (tagAt? (c :: cs)).bind (attribute? "id") = some id then some (c :: cs) else arrive? id cs

/-- Where one of the links of a page leads: the page from there on. -/
def follow? (page : List Char) (link : Nat) : Option (List Char) := do
  match ← (values "href" page)[link]? with
  | '#' :: id => arrive? id page
  | _ => none

theorem follow?_of_href {page id : List Char} {link : Nat} (h : (values "href" page)[link]? = some ('#' :: id)) :
    follow? page link = arrive? id page := by
  rw [follow?, h]
  rfl

theorem tags_cons (c : Char) (cs : List Char) : tags (c :: cs) = (tagAt? (c :: cs)).toList ++ tags cs := by
  rw [tags, tagAt?]
  split <;> rfl

theorem tagAt?_append {c : Char} {cs : List Char} (h : c = '<' → '>' ∈ cs) (ys : List Char) :
    tagAt? (c :: (cs ++ ys)) = tagAt? (c :: cs) := by
  rw [tagAt?, tagAt?]
  by_cases hc : c = '<'
  · rw [if_pos hc, if_pos hc, toClose?_append (h hc)]
  · rw [if_neg hc, if_neg hc]

/-- What has not the id is passed over. -/
theorem arrive?_append {id xs : List Char} (h : Closed xs) (hid : id ∉ values "id" xs) (ys : List Char) :
    arrive? id (xs ++ ys) = arrive? id ys := by
  -- on `Closed` and not on the list: a tag of `xs` must not reach into `ys`
  induction h with
  | nil => rfl
  | @cons c xs h _ ih =>
    rw [values, tags_cons, List.filterMap_append, List.mem_append, not_or] at hid
    have hother : (tagAt? (c :: xs)).bind (attribute? "id") ≠ some id := by
      intro heq
      obtain ⟨tag, htag, hvalue⟩ := Option.bind_eq_some_iff.mp heq
      apply hid.1
      rw [htag]
      exact List.mem_filterMap.mpr ⟨tag, List.mem_singleton_self tag, hvalue⟩
    rw [List.cons_append, arrive?, tagAt?_append h, if_neg hother]
    exact ih hid.2

theorem tagAt?_tagWith {part value : List Char} (hp : ∀ c ∈ part, ¬ IsMark c) (hv : ∀ c ∈ value, ¬ IsMark c)
    (ys : List Char) : tagAt? (tagWith part value ++ ys) = some (tagWith part value) := by
  have hgt := not_mem_attribute hp hv (show IsMark '>' by decide) (by decide)
  have hassoc : part ++ '"' :: (value ++ ['"', '>']) = part ++ '"' :: (value ++ ['"']) ++ ['>'] := by simp
  have hlast : '>' ∈ part ++ '"' :: (value ++ ['"']) ++ ['>'] := List.mem_append_right _ List.mem_cons_self
  rw [tagWith, List.cons_append, hassoc, tagAt?, if_pos rfl, toClose?_append hlast, toClose?_of_not_mem hgt,
    Option.map_some]

/-- A tag with the id is arrived at. -/
theorem arrive?_tagWith {part id : List Char} (hp : ∀ c ∈ part, ¬ IsMark c) (hid : ∀ c ∈ id, ¬ IsMark c)
    (hname : Names "id" ('<' :: part)) (ys : List Char) :
    arrive? id (tagWith part id ++ ys) = some (tagWith part id ++ ys) := by
  have htag := tagAt?_tagWith hp hid ys
  have hattribute := attribute?_tagWith hp hid "id"
  rw [if_pos hname] at hattribute
  have hcons : tagWith part id ++ ys = '<' :: (part ++ '"' :: (id ++ ['"', '>']) ++ ys) := rfl
  rw [hcons] at htag ⊢
  rw [arrive?, htag, Option.bind_some, if_pos hattribute]

/-! ### Ids and references of pieces -/

/-- Closed tags, with these ids and references in order. -/
structure Linking (ids hrefs : List (List Char)) (cs : List Char) : Prop where
  closed : Closed cs
  ids : values "id" cs = ids
  hrefs : values "href" cs = hrefs

instance Linking.decidable (ids hrefs : List (List Char)) (cs : List Char) : Decidable (Linking ids hrefs cs) :=
  decidable_of_iff (Closed cs ∧ values "id" cs = ids ∧ values "href" cs = hrefs)
    ⟨fun h => ⟨h.1, h.2.1, h.2.2⟩, fun h => ⟨h.closed, h.ids, h.hrefs⟩⟩

theorem Linking.append {ids ids' hrefs hrefs' : List (List Char)} {xs ys : List Char} (h : Linking ids hrefs xs)
    (h' : Linking ids' hrefs' ys) : Linking (ids ++ ids') (hrefs ++ hrefs') (xs ++ ys) where
  closed := h.closed.append h'.closed
  ids := by rw [values_append _ h.closed, h.ids, h'.ids]
  hrefs := by rw [values_append _ h.closed, h.hrefs, h'.hrefs]

theorem flatMap_none {α : Type} (xs : List α) : xs.flatMap (fun _ => ([] : List (List Char))) = [] :=
  List.flatMap_eq_nil_iff.mpr fun _ _ => rfl

theorem Linking.flatMap {α : Type} {f : α → List Piece} {ids hrefs : α → List (List Char)}
    (h : ∀ x, Linking (ids x) (hrefs x) (chars (f x))) (xs : List α) :
    Linking (xs.flatMap ids) (xs.flatMap hrefs) (chars (xs.flatMap f)) := by
  induction xs with
  | nil => exact ⟨.nil, rfl, rfl⟩
  | cons x xs ih =>
    rw [List.flatMap_cons, List.flatMap_cons, List.flatMap_cons, chars_append]
    exact (h x).append ih

/-- Pieces without ids and references. -/
abbrev Plain (ps : List Piece) : Prop := Linking [] [] (chars ps)

theorem Plain.append {ps qs : List Piece} (h : Plain ps) (h' : Plain qs) : Plain (ps ++ qs) := by
  rw [Plain, chars_append]
  exact Linking.append h h'

theorem plain_data (text : String) : Plain [.data text] := by
  have hchars : chars [.data text] = (escape text).toList := by simp [chars, Piece.text]
  have hlt : '<' ∉ (escape text).toList := fun h => not_isMark_of_mem_escape h (by decide)
  rw [Plain, hchars]
  exact ⟨closed_of_not_mem hlt, values_of_not_mem _ hlt, values_of_not_mem _ hlt⟩

theorem plain_markup {text : String} (h : Linking [] [] text.toList) : Plain [.markup text] := by
  have hchars : chars [.markup text] = text.toList := by simp [chars, Piece.text]
  rwa [Plain, hchars]

theorem plain_around {before after : String} (hb : Linking [] [] before.toList) (ha : Linking [] [] after.toList)
    (text : String) : Plain (around before text after) :=
  (plain_markup hb).append ((plain_data text).append (plain_markup ha))

theorem plain_flatMap {α : Type} {f : α → List Piece} (h : ∀ x, Plain (f x)) (xs : List α) :
    Plain (xs.flatMap f) := by
  have hall := Linking.flatMap h xs
  rwa [flatMap_none] at hall

theorem plain_description (text : String) : Plain (descriptionPieces text) := by
  rw [descriptionPieces]
  split
  · exact ⟨.nil, rfl, rfl⟩
  · exact plain_around (by decide) (by decide) text

theorem plain_parameter (p : ParameterDoc) : Plain (parameterPieces p) :=
  (plain_around (by decide) (by decide) p.name).append
    ((plain_data p.shownType).append (plain_markup (by decide)))

theorem plain_parameters (ps : List ParameterDoc) : Plain (parametersPieces ps) := by
  rw [parametersPieces]
  split
  · exact ⟨.nil, rfl, rfl⟩
  · have hopen : Plain [.markup "<table>\n  <tr><th>Parameter</th><th>Type</th></tr>\n"] := plain_markup (by decide)
    exact (hopen.append (plain_flatMap plain_parameter ps)).append (plain_markup (by decide))

theorem plain_return (type : Option String) : Plain (returnPieces type) := by
  cases type with
  | none => exact ⟨.nil, rfl, rfl⟩
  | some type => exact plain_around (by decide) (by decide) type

theorem plain_function (f : FunctionDoc) : Plain (functionPieces f) := by
  have hhead : Plain (around "<h3><code>" f.signature "</code>") := plain_around (by decide) (by decide) _
  have hnative : Plain (if f.isNative then [.markup " <span class=\"tag tag-native\">native</span>"] else []) := by
    split
    · exact plain_markup (by decide)
    · exact ⟨.nil, rfl, rfl⟩
  have hclose : Plain [.markup "</h3>\n"] := plain_markup (by decide)
  exact (((hhead.append hnative).append hclose).append (plain_description _)).append (plain_parameters _)
    |>.append (plain_return _)

/-! ### Sections and links -/

theorem mem_anchor {c : Char} {title : String} (h : c ∈ (anchor title).toList) : isAlphanumeric c = true ∨ c = '-' := by
  rw [anchor, String.toList_ofList] at h
  obtain ⟨d, hd, rfl⟩ := List.mem_map.mp h
  have hkept := (List.mem_filter.mp hd).2
  by_cases hs : d = ' '
  · rw [if_pos hs]
    exact .inr rfl
  · rw [if_neg hs]
    simpa [keptInAnchor, hs] using hkept

theorem substitute_of_not_mem {c : Char} {text : String} (h : c ∉ text.toList) (replacement : String) :
    substitute c replacement text = text := by
  have hself : ∀ d ∈ text.toList, (if d = c then replacement.toList else [d]) = [d] := by
    intro d hd
    have hne : d ≠ c := fun hc => h (hc ▸ hd)
    exact if_neg hne
  rw [substitute, List.flatMap_congr hself, List.flatMap_singleton', String.ofList_toList]

/-- A text without a character that would be replaced stands as it is. -/
theorem escape_of_not_mem {text : String} (h : ∀ r ∈ replacements, r.1 ∉ text.toList) : escape text = text := by
  have hall : ∀ rs : List (Char × String), (∀ r ∈ rs, r.1 ∉ text.toList) →
      rs.foldl (fun text r => substitute r.1 r.2 text) text = text := by
    intro rs hrs
    induction rs with
    | nil => rfl
    | cons r rs ih =>
      rw [List.forall_mem_cons] at hrs
      rw [List.foldl_cons, substitute_of_not_mem hrs.1, ih hrs.2]
  exact hall replacements h

/-- The id of a section is not changed as data. -/
theorem escape_sectionId (m : ModuleDoc) : escape (sectionId m) = sectionId m := by
  have hother : ∀ r ∈ replacements, r.1 ∉ "module-".toList ∧ isAlphanumeric r.1 = false ∧ r.1 ≠ '-' := by decide
  refine escape_of_not_mem fun r hr hmem => ?_
  obtain ⟨hlead, hletter, hhyphen⟩ := hother r hr
  rw [sectionId, String.toList_append, List.mem_append] at hmem
  rcases hmem with hmem | hmem
  · exact hlead hmem
  · rcases mem_anchor hmem with hc | hc
    · rw [hletter] at hc
      cases hc
    · exact hhyphen hc

theorem sectionId_inj {m n : ModuleDoc} : sectionId m = sectionId n ↔ anchor m.name = anchor n.name := by
  rw [sectionId, sectionId, String.append_right_inj]

/-- The characters of a section's id. -/
def idOf (m : ModuleDoc) : List Char := (sectionId m).toList

theorem not_isMark_of_mem_idOf {m : ModuleDoc} : ∀ c ∈ idOf m, ¬ IsMark c := by
  intro c hc
  rw [idOf, ← escape_sectionId] at hc
  exact not_isMark_of_mem_escape hc

theorem not_isMark_section : ∀ c ∈ "section id=".toList, ¬ IsMark c := marks_eq_nil_iff.mp (by decide)

/-- A module is the tag of its section and what has neither ids nor references. -/
theorem exists_module (m : ModuleDoc) :
    ∃ rest, chars (modulePieces m) = tagWith "section id=".toList (idOf m) ++ rest ∧ Linking [] [] rest := by
  have hline : Linking [] [] ['\n'] := by decide
  have hname : Plain (around "<h2>" m.name "</h2>\n") := plain_around (by decide) (by decide) _
  have hempty : Plain (if m.functions = [] then [.markup "<p><em>No functions.</em></p>\n"] else []) := by
    split
    · exact plain_markup (by decide)
    · exact ⟨.nil, rfl, rfl⟩
  have hclose : Plain [.markup "</section>\n"] := plain_markup (by decide)
  have hrest := (((hname.append (plain_description m.description)).append hempty).append
    (plain_flatMap plain_function m.functions)).append hclose
  have htag : chars (around "<section id=\"" (sectionId m) "\">\n") =
      tagWith "section id=".toList (idOf m) ++ ['\n'] := by
    rw [chars_around, escape_sectionId]
    simp [tagWith, idOf]
  refine ⟨_, ?_, hline.append hrest⟩
  rw [← List.append_assoc, ← htag, ← chars_append, modulePieces]
  simp only [List.append_assoc]

theorem linking_module (m : ModuleDoc) : Linking [idOf m] [] (chars (modulePieces m)) := by
  obtain ⟨rest, hchars, hrest⟩ := exists_module m
  have hvalues := values_tagWith not_isMark_section (not_isMark_of_mem_idOf (m := m))
  have htag : Linking [idOf m] [] (tagWith "section id=".toList (idOf m)) := by
    refine ⟨closed_attribute not_isMark_section not_isMark_of_mem_idOf, ?_, ?_⟩
    · rw [hvalues, if_pos (by decide)]
    · rw [hvalues, if_neg (by decide)]
  rw [hchars]
  exact htag.append hrest

theorem arrive?_module (m : ModuleDoc) (ys : List Char) :
    arrive? (idOf m) (chars (modulePieces m) ++ ys) = some (chars (modulePieces m) ++ ys) := by
  obtain ⟨rest, hchars, -⟩ := exists_module m
  rw [hchars, List.append_assoc]
  exact arrive?_tagWith not_isMark_section not_isMark_of_mem_idOf (by decide) (rest ++ ys)

theorem linking_link (m : ModuleDoc) : Linking [] ['#' :: idOf m] (chars (linkPieces m)) := by
  have hpart : ∀ c ∈ "a href=".toList, ¬ IsMark c := marks_eq_nil_iff.mp (by decide)
  have hvalue : ∀ c ∈ '#' :: idOf m, ¬ IsMark c :=
    List.forall_mem_cons.mpr ⟨by decide, not_isMark_of_mem_idOf⟩
  have hvalues := values_tagWith hpart hvalue
  have htag : Linking [] ['#' :: idOf m] (tagWith "a href=".toList ('#' :: idOf m)) := by
    refine ⟨closed_attribute hpart hvalue, ?_, ?_⟩
    · rw [hvalues, if_neg (by decide)]
    · rw [hvalues, if_pos (by decide)]
  have hchars : chars (around "  <li><a href=\"#" (sectionId m) "\">") =
      "  <li>".toList ++ tagWith "a href=".toList ('#' :: idOf m) := by
    rw [chars_around, escape_sectionId]
    simp [tagWith, idOf]
  have hitem : Linking [] [] "  <li>".toList := by decide
  have hname : Plain [.data m.name, .markup "</a></li>\n"] :=
    (plain_data m.name).append (plain_markup (by decide))
  rw [linkPieces, chars_append, hchars]
  exact (hitem.append htag).append hname

/-! ### The page -/

/-- The page from the sections of modules on. -/
def pageFrom (modules : List ModuleDoc) : List Char :=
  chars (modules.flatMap modulePieces) ++ chars [.markup "</body>\n</html>\n"]

theorem pageFrom_append (ms ns : List ModuleDoc) :
    pageFrom (ms ++ ns) = chars (ms.flatMap modulePieces) ++ pageFrom ns := by
  rw [pageFrom, List.flatMap_append, chars_append, List.append_assoc, pageFrom]

/-- There is more to come if there is one more module. -/
theorem pageFrom_append_eq_iff {ms ns : List ModuleDoc} : pageFrom (ms ++ ns) = pageFrom ns ↔ ms = [] := by
  rw [pageFrom_append, List.append_left_eq_self]
  constructor
  · intro hnil
    cases ms with
    | nil => rfl
    | cons m ms =>
      obtain ⟨rest, hchars, -⟩ := exists_module m
      rw [List.flatMap_cons, chars_append, hchars] at hnil
      cases hnil
  · rintro rfl
    rfl

/-- The id of a module's section leads to the first section with this id. -/
theorem arrive?_pageFrom {id : List Char} {ms : List ModuleDoc} (h : ∃ m ∈ ms, idOf m = id) :
    arrive? id (pageFrom ms) = some (pageFrom (ms.dropWhile fun m => idOf m ≠ id)) := by
  induction ms with
  | nil =>
    obtain ⟨m, hm, -⟩ := h
    cases hm
  | cons m ms ih =>
    have hcons : pageFrom (m :: ms) = chars (modulePieces m) ++ pageFrom ms := by
      have happend := pageFrom_append [m] ms
      rwa [List.singleton_append, List.flatMap_singleton] at happend
    by_cases hm : idOf m = id
    · rw [List.dropWhile_cons_of_neg (by simpa using hm), hcons, ← hm, arrive?_module]
    · have hlater : ∃ n ∈ ms, idOf n = id := by
        obtain ⟨n, hn, hid⟩ := h
        rcases List.mem_cons.mp hn with rfl | hn
        · exact absurd hid hm
        · exact ⟨n, hn, hid⟩
      have hlinking := linking_module m
      have hother : id ∉ values "id" (chars (modulePieces m)) := by
        rw [hlinking.ids, List.mem_singleton]
        exact fun he => hm he.symm
      rw [List.dropWhile_cons_of_pos (by simpa using hm), hcons, arrive?_append hlinking.closed hother, ih hlater]

theorem linking_style : Linking [] [] style.toList := by
  refine of_lines ⟨.nil, rfl, rfl⟩ (by decide) Linking.append ?_
  simp only [List.forall_mem_cons, List.not_mem_nil, false_imp_iff, implies_true, and_true]
  refine ⟨?_, ?_, ?_, ?_, ?_, ?_, ?_, ?_⟩ <;> exact of_literal rfl (by decide +kernel)

theorem linking_index (modules : List ModuleDoc) :
    Linking [] (modules.map fun m => '#' :: idOf m) (chars (indexPieces modules)) := by
  rw [indexPieces]
  split
  · next hnone =>
    rw [hnone]
    exact ⟨.nil, rfl, rfl⟩
  · have hopen : Plain [.markup "<h2>Modules</h2>\n<ul>\n"] := plain_markup (by decide)
    have hlinks := Linking.flatMap linking_link modules
    have hclose : Plain [.markup "</ul>\n"] := plain_markup (by decide)
    have hindex := (Linking.append hopen hlinks).append hclose
    rw [← chars_append, ← chars_append, flatMap_none, ← List.map_eq_flatMap] at hindex
    simpa using hindex

/-- A page is what has a reference to each module and no id, and the sections of the modules. -/
theorem exists_page (project : String) (modules : List ModuleDoc) :
    ∃ front, (page project modules).toList = front ++ pageFrom modules ∧
      Linking [] (modules.map fun m => '#' :: idOf m) front := by
  have hopen : Plain [.markup "<!DOCTYPE html>\n<html>\n<head>\n<meta charset=\"utf-8\">\n"] :=
    plain_markup (by decide)
  have htitle : Plain (around "<title>" project " API Documentation</title>\n") :=
    plain_around (by decide) (by decide) project
  have hstyle : Plain [.markup style, .markup "</head>\n<body>\n"] :=
    (plain_markup linking_style).append (plain_markup (by decide))
  have hheading : Plain (around "<h1>" project "</h1>\n") := plain_around (by decide) (by decide) project
  have hfront := Linking.append (((hopen.append htitle).append hstyle).append hheading) (linking_index modules)
  refine ⟨_, ?_, hfront⟩
  rw [toList_page, pieces, pageFrom, ← chars_append, ← chars_append, ← chars_append]
  simp only [List.append_assoc, List.cons_append, List.nil_append]

/-- The ids of a page are those of its sections. -/
theorem linking_page (project : String) (modules : List ModuleDoc) :
    Linking (modules.map idOf) (modules.map fun m => '#' :: idOf m) (page project modules).toList := by
  obtain ⟨front, hpage, hfront⟩ := exists_page project modules
  have hsections := Linking.flatMap linking_module modules
  have hclose : Plain [.markup "</body>\n</html>\n"] := plain_markup (by decide)
  have hall := hfront.append (Linking.append hsections hclose)
  rw [flatMap_none, ← List.map_eq_flatMap] at hall
  rw [hpage, pageFrom]
  simpa using hall

theorem idOf_inj {m n : ModuleDoc} : idOf m = idOf n ↔ anchor m.name = anchor n.name := by
  rw [idOf, idOf, String.toList_inj, sectionId_inj]

/-- A link leads to the section of the first module with the anchor of its own. -/
theorem follow?_eq (project : String) (modules : List ModuleDoc) (i : Fin modules.length) :
    follow? (page project modules).toList i =
      some (pageFrom (modules.dropWhile fun m => anchor m.name ≠ anchor modules[i].name)) := by
  obtain ⟨front, hpage, hfront⟩ := exists_page project modules
  have hlink : (values "href" (page project modules).toList)[(i : Nat)]? = some ('#' :: idOf modules[i]) := by
    rw [(linking_page project modules).hrefs, List.getElem?_map, List.getElem?_eq_getElem i.isLt]
    rfl
  have hsame : (fun m => decide (idOf m ≠ idOf modules[i])) =
      fun m => decide (anchor m.name ≠ anchor modules[i].name) := by
    funext m
    rw [decide_eq_decide, ne_eq, ne_eq, idOf_inj]
  have hfound : ∃ m ∈ modules, idOf m = idOf modules[i] := ⟨modules[i], List.getElem_mem i.isLt, rfl⟩
  have hnone : idOf modules[i] ∉ values "id" front := by
    rw [hfront.ids]
    exact List.not_mem_nil
  rw [follow?_of_href hlink, hpage, arrive?_append hfront.closed hnone, arrive?_pageFrom hfound, hsame]

theorem nodup_ids_iff (project : String) (modules : List ModuleDoc) :
    (values "id" (page project modules).toList).Nodup ↔ (modules.map fun m => anchor m.name).Nodup := by
  rw [(linking_page project modules).ids, List.Nodup, List.Nodup, List.pairwise_map, List.pairwise_map]
  simp only [ne_eq, idOf_inj]

/-- Nothing is dropped from an item on that is not to be dropped. -/
theorem dropWhile_split {α : Type} {p : α → Bool} {xs : List α} {i : Nat} (h : i < xs.length)
    (hp : p xs[i] = false) : xs.dropWhile p = (xs.take i).dropWhile p ++ xs.drop i := by
  have hdrop : (xs.drop i).dropWhile p = xs.drop i := by
    rw [List.drop_eq_getElem_cons h, List.dropWhile_cons_of_neg (by simp [hp])]
  conv_lhs => rw [← List.take_append_drop i xs, List.dropWhile_append, hdrop]
  split
  · next hempty => rw [List.isEmpty_iff.mp hempty, List.nil_append]
  · rfl

/-- The links of a page are one to each module and its ids those of the sections, in order;
the ids differ if and only if the anchors do. A link leads to the section of the first module
with the anchor of its own; so to its own section if and only if no module before has this
anchor. -/
theorem follow?_page (project : String) (modules : List ModuleDoc) :
    values "href" (page project modules).toList = modules.map (fun m => '#' :: (sectionId m).toList) ∧
    values "id" (page project modules).toList = modules.map (fun m => (sectionId m).toList) ∧
    ((values "id" (page project modules).toList).Nodup ↔ (modules.map fun m => anchor m.name).Nodup) ∧
    ∀ i : Fin modules.length,
      follow? (page project modules).toList i =
        some (pageFrom (modules.dropWhile fun m => anchor m.name ≠ anchor modules[i].name)) ∧
      (follow? (page project modules).toList i = some (pageFrom (modules.drop i)) ↔
        ∀ m ∈ modules.take i, anchor m.name ≠ anchor modules[i].name) := by
  have hlinking := linking_page project modules
  refine ⟨hlinking.hrefs, hlinking.ids, nodup_ids_iff project modules, fun i => ?_⟩
  have hfollow := follow?_eq project modules i
  refine ⟨hfollow, ?_⟩
  have hsplit := dropWhile_split (p := fun m => anchor m.name ≠ anchor modules[i].name) i.isLt (by simp)
  rw [hfollow, hsplit, Option.some_inj, pageFrom_append_eq_iff, List.dropWhile_eq_nil_iff]
  simp only [decide_eq_true_eq]

/-- Two names with one anchor. -/
def colliding : List ModuleDoc := [⟨"ab", "", []⟩, ⟨"a.b", "", []⟩]

theorem follow?_colliding :
    (colliding.map (·.name)).Nodup ∧ ¬ (values "id" (page "P" colliding).toList).Nodup ∧
      follow? (page "P" colliding).toList 1 = some (pageFrom colliding) ∧
      pageFrom colliding ≠ pageFrom (colliding.drop 1) := by
  have hanchor : anchor "a.b" = anchor "ab" := by decide +kernel
  refine ⟨by decide, ?_, ?_, ?_⟩
  · rw [nodup_ids_iff]
    simp [colliding, hanchor]
  · have hfollow := follow?_eq "P" colliding ⟨1, by decide⟩
    have hfirst : (colliding.dropWhile fun m => anchor m.name ≠ anchor "a.b") = colliding :=
      List.dropWhile_cons_of_neg (by simp [hanchor])
    exact hfollow.trans (congrArg (fun ms => some (pageFrom ms)) hfirst)
  · intro hsame
    have hnone : colliding.take 1 = [] := pageFrom_append_eq_iff.mp hsame
    cases hnone

end Html
end ApiReference
