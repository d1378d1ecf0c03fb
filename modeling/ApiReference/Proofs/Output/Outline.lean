/-
# The outline of a Markdown page

A page is read line by line. A line that is a fence opens a block, the next fence closes it, and
what stands between them is not looked at (`parts`). The outline of the page are its blocks and,
outside of them, the headings and the items of the index.

Each stretch of lines that a page is put together from is read in the same way whatever stands
behind it, has its headings apart from other text, and ends with an empty line. So stretches
can be put together (`Stretch.append`), and the outline of a page is that of its stretches in
order (`outline_page`). That needs names that are lines: a line feed in one could begin a
heading or a fence of its own.

Key definitions: `parts`, `Part.InOutline`, `SetApart`, `Stretch`, `outline`.
Key theorems: `Stretch.append`, `stretch_lines`, `outlines_function`, `outlines_lines`,
`outline_page`.
-/
import ApiReference.Output.Markdown
import ApiReference.Proofs.Output.Lines
import ApiReference.Proofs.Output.Links
import ApiReference.Proofs.Telling
import Mathlib.Data.List.Chain

namespace ApiReference

/-! ### Documentation without descriptions -/

/-- A function without a description, of itself or of a parameter. -/
def FunctionDoc.Undescribed (f : FunctionDoc) : Prop :=
  f.description = "" ∧ ∀ p ∈ f.parameters, p.description = ""

/-- A module without any description. -/
def ModuleDoc.Undescribed (m : ModuleDoc) : Prop :=
  m.description = "" ∧ ∀ f ∈ m.functions, f.Undescribed

namespace Markdown

/-! ### Reading a page -/

/-- A part of a page: a line outside of fences, or a block with the lines between its fences. -/
inductive Part where
  | line (text : String)
  | block (content : List String)
  deriving DecidableEq, Repr

/-- The parts of lines, outside of a block or behind a fence and the content that it has so far.
A fence that nothing closes is a line like others. -/
def partsFrom : Option (List String) → List String → List Part
  | none, [] => []
  | none, l :: ls => if l = fence then partsFrom (some []) ls else .line l :: partsFrom none ls
  | some content, [] => .line fence :: content.map .line
  | some content, l :: ls =>
    if l = fence then .block content :: partsFrom none ls else partsFrom (some (content ++ [l])) ls

/-- The parts of a page. -/
def parts (ls : List String) : List Part := partsFrom none ls

/-- A line begins with some characters. -/
def BeginsWith (lead line : String) : Prop := lead.toList <+: line.toList

instance (lead line : String) : Decidable (BeginsWith lead line) := inferInstanceAs (Decidable (_ <+: _))

namespace Part

/-- A heading. -/
def IsHeading : Part → Prop
  | line text => BeginsWith "#" text
  | block _ => False

/-- A heading, an item of the index or a block. -/
def InOutline : Part → Prop
  | line text => BeginsWith "#" text ∨ BeginsWith "* [" text
  | block _ => True

instance : DecidablePred InOutline
  | line text => inferInstanceAs (Decidable (BeginsWith "#" text ∨ BeginsWith "* [" text))
  | block _ => inferInstanceAs (Decidable True)

end Part

theorem parts_cons {l : String} (h : l ≠ fence) (ls : List String) : parts (l :: ls) = .line l :: parts ls := by
  rw [parts, partsFrom, if_neg h, parts]

theorem parts_append {ls : List String} (h : ∀ l ∈ ls, l ≠ fence) (rest : List String) :
    parts (ls ++ rest) = ls.map .line ++ parts rest := by
  induction ls with
  | nil => rfl
  | cons l ls ih =>
    rw [List.forall_mem_cons] at h
    rw [List.cons_append, parts_cons h.1, ih h.2, List.map_cons, List.cons_append]

theorem parts_block {l : String} (h : l ≠ fence) (rest : List String) :
    parts (fence :: l :: fence :: rest) = .block [l] :: parts rest := by
  simp [parts, partsFrom, h]

/-! ### Stretches of a page -/

/-- Of two parts that are neighbours, a heading has an empty line as the other. -/
def SetApart (p q : Part) : Prop := (p.IsHeading → q = .line "") ∧ (q.IsHeading → p = .line "")

/-- Lines are read as parts whatever stands behind them, with the headings apart and an empty line
at the end. -/
structure Stretch (ls : List String) (ps : List Part) : Prop where
  reads : ∀ rest, parts (ls ++ rest) = ps ++ parts rest
  apart : ps.IsChain SetApart
  closed : ∀ p ∈ ps.getLast?, p = .line ""

theorem not_isHeading_empty : ¬ (Part.line "").IsHeading := by
  show ¬ BeginsWith "#" ""
  decide

theorem Stretch.nil : Stretch [] [] := ⟨fun _ => rfl, .nil, by simp⟩

theorem Stretch.append {ls ls' : List String} {ps ps' : List Part} (h : Stretch ls ps) (h' : Stretch ls' ps') :
    Stretch (ls ++ ls') (ps ++ ps') where
  reads rest := by rw [List.append_assoc, h.reads, h'.reads, List.append_assoc]
  apart := by
    refine List.isChain_append.mpr ⟨h.apart, h'.apart, fun p hp q _ => ?_⟩
    have hp' : p = .line "" := h.closed p hp
    exact ⟨fun hheading => absurd (hp' ▸ hheading) not_isHeading_empty, fun _ => hp'⟩
  closed p hp := by
    rw [List.getLast?_append, Option.mem_def, Option.or_eq_some_iff] at hp
    rcases hp with hlast | ⟨-, hlast⟩
    · exact h'.closed p hlast
    · exact h.closed p hlast

/-- Lines without fences and headings. -/
theorem stretch_lines {ls : List String} (h : ∀ l ∈ ls, l ≠ fence ∧ ¬ BeginsWith "#" l)
    (hlast : ls.getLast? = some "") : Stretch ls (ls.map .line) where
  reads := parts_append fun l hl => (h l hl).1
  apart := by
    have hnone : ∀ p ∈ ls.map Part.line, ¬ p.IsHeading := List.forall_mem_map.mpr fun l hl => (h l hl).2
    refine List.isChain_iff_forall_rel_of_append_cons_cons.mpr fun p q before after hsplit => ?_
    rw [hsplit] at hnone
    exact ⟨fun hp => absurd hp (hnone p (by simp)), fun hq => absurd hq (hnone q (by simp))⟩
  closed p hp := by
    rw [List.getLast?_map, hlast] at hp
    exact (Option.some.inj hp).symm

theorem stretch_heading {l : String} (h : l ≠ fence) : Stretch [l, ""] [.line l, .line ""] where
  reads := by
    have hempty : "" ≠ fence := by decide
    exact parts_append (List.forall_mem_cons.mpr ⟨h, List.forall_mem_singleton.mpr hempty⟩)
  apart := by simp [SetApart, not_isHeading_empty]
  closed := by simp

theorem stretch_block {l : String} (h : l ≠ fence) : Stretch [fence, l, fence, ""] [.block [l], .line ""] where
  reads rest := by
    have hempty : "" ≠ fence := by decide
    simp only [List.cons_append, List.nil_append, parts_block h, parts_cons hempty]
  apart := by
    have hblock : ¬ (Part.block [l]).IsHeading := id
    simp [SetApart, not_isHeading_empty, hblock]
  closed := by simp

/-- Lines are a stretch with an outline. -/
def Outlines (ls : List String) (marks : List Part) : Prop :=
  ∃ ps, Stretch ls ps ∧ ps.filter Part.InOutline = marks

theorem Outlines.append {ls ls' : List String} {marks marks' : List Part} (h : Outlines ls marks)
    (h' : Outlines ls' marks') : Outlines (ls ++ ls') (marks ++ marks') := by
  obtain ⟨ps, hps, rfl⟩ := h
  obtain ⟨ps', hps', rfl⟩ := h'
  exact ⟨ps ++ ps', hps.append hps', List.filter_append ps ps'⟩

theorem Outlines.nil : Outlines [] [] := ⟨[], .nil, rfl⟩

theorem Outlines.flatMap {α : Type} {f : α → List String} {g : α → List Part} {as : List α}
    (h : ∀ a ∈ as, Outlines (f a) (g a)) : Outlines (as.flatMap f) (as.flatMap g) := by
  induction as with
  | nil => exact .nil
  | cons a as ih =>
    rw [List.forall_mem_cons] at h
    exact h.1.append (ih h.2)

theorem outlines_heading {l : String} (h : BeginsWith "#" l) : Outlines [l, ""] [.line l] := by
  have hfence : l ≠ fence := by
    rintro rfl
    exact absurd h (by decide)
  have hin : (Part.line l).InOutline := .inl h
  have hout : ¬ (Part.line "").InOutline := by decide
  exact ⟨_, stretch_heading hfence, by simp [hin, hout]⟩

theorem outlines_block {l : String} (h : l ≠ fence) : Outlines [fence, l, fence, ""] [.block [l]] := by
  have hin : (Part.block [l]).InOutline := trivial
  have hout : ¬ (Part.line "").InOutline := by decide
  exact ⟨_, stretch_block h, by simp [hin, hout]⟩

/-- Lines of which nothing is in the outline. -/
theorem outlines_plain {ls : List String} (h : ∀ l ∈ ls, l ≠ fence ∧ ¬ (Part.line l).InOutline)
    (hlast : ls.getLast? = some "") : Outlines ls [] := by
  have hlines : ∀ l ∈ ls, l ≠ fence ∧ ¬ BeginsWith "#" l := fun l hl => ⟨(h l hl).1, fun hb => (h l hl).2 (.inl hb)⟩
  refine ⟨_, stretch_lines hlines hlast, ?_⟩
  rw [List.filter_eq_nil_iff, List.forall_mem_map]
  intro l hl
  simpa using (h l hl).2

/-! ### The outline of a page -/

/-- The outline of a function: its heading, its signature in a block, and the heading of its
parameters, if it has any. -/
def functionOutline (f : FunctionDoc) : List Part :=
  [.line ("### " ++ f.name), .block [f.signature]] ++ if f.parameters = [] then [] else [.line "#### Parameters"]

/-- The outline of a module: its heading and the outlines of its functions. -/
def moduleOutline (m : ModuleDoc) : List Part := .line ("## " ++ m.name) :: m.functions.flatMap functionOutline

/-- The outline of the index, if there are modules: its heading and an item for each. -/
def indexOutline (modules : List ModuleDoc) : List Part :=
  if modules = [] then [] else .line "## Index" :: modules.map fun m => .line (anchorItem m.name)

/-- The outline of a page: its title, the index, and the outlines of the modules. -/
def outline (project : String) (modules : List ModuleDoc) : List Part :=
  .line ("# " ++ project) :: indexOutline modules ++ modules.flatMap moduleOutline

theorem beginsWith_append {lead start : String} (h : BeginsWith lead start) (rest : String) :
    BeginsWith lead (start ++ rest) := by
  rw [BeginsWith, String.toList_append]
  exact List.IsPrefix.trans h (List.prefix_append _ _)

/-- A line that begins in one way does not begin in another. -/
theorem not_beginsWith_append {lead start : String} (h : Apart lead start) (rest : String) :
    ¬ BeginsWith lead (start ++ rest) := by
  rintro ⟨zs, hzs⟩
  rw [String.toList_append] at hzs
  exact h.append_ne zs rest.toList hzs

/-- A line that begins in none of the ways that count. -/
theorem plain_append {start : String} (h : ∀ lead ∈ ["#", "* [", fence], Apart lead start) (rest : String) :
    start ++ rest ≠ fence ∧ ¬ (Part.line (start ++ rest)).InOutline := by
  simp only [List.forall_mem_cons, List.not_mem_nil, false_imp_iff, implies_true, and_true] at h
  obtain ⟨hhash, hitem, hfence⟩ := h
  refine ⟨fun heq => ?_, ?_⟩
  · have hbegins : BeginsWith fence (start ++ rest) := heq ▸ List.prefix_refl fence.toList
    exact not_beginsWith_append hfence rest hbegins
  · rintro (hb | hb)
    · exact not_beginsWith_append hhash rest hb
    · exact not_beginsWith_append hitem rest hb

/-- A signature has a parenthesis, so it is no fence. -/
theorem signature_ne_fence (f : FunctionDoc) : f.signature ≠ fence := by
  intro heq
  have hmem : '(' ∈ f.signature.toList := by simp [FunctionDoc.signature]
  rw [heq] at hmem
  exact absurd hmem (by decide)

theorem outlines_native (isNative : Bool) : Outlines (if isNative then ["> `native`", ""] else []) [] := by
  cases isNative with
  | true => exact outlines_plain (by decide) rfl
  | false => exact .nil

theorem outlines_return (returns : Option String) : Outlines (returnLines returns) [] := by
  cases returns with
  | none => exact .nil
  | some type =>
    have hline : "**Returns** `" ++ type ++ "`" ≠ fence ∧ ¬ (Part.line ("**Returns** `" ++ type ++ "`")).InOutline := by
      rw [String.append_assoc]
      exact plain_append (by decide) _
    refine outlines_plain ?_ rfl
    exact List.forall_mem_cons.mpr ⟨hline, List.forall_mem_singleton.mpr (by decide)⟩

theorem outlines_parameters (parameters : List ParameterDoc) :
    Outlines (parameterLines parameters) (if parameters = [] then [] else [.line "#### Parameters"]) := by
  rw [parameterLines]
  split
  · exact .nil
  · have hitem : ∀ p : ParameterDoc, parameterItem p ≠ fence ∧ ¬ (Part.line (parameterItem p)).InOutline := by
      intro p
      rw [parameterItem, String.append_assoc, String.append_assoc, String.append_assoc, String.append_assoc]
      exact plain_append (by decide) _
    have hitems : Outlines (parameters.map parameterItem ++ [""]) [] := by
      refine outlines_plain ?_ (by simp)
      rw [List.forall_mem_append, List.forall_mem_map, List.forall_mem_singleton]
      exact ⟨fun p _ => hitem p, by decide⟩
    have hheading : Outlines ["#### Parameters", ""] [.line "#### Parameters"] := outlines_heading (by decide)
    rw [List.append_assoc]
    exact hheading.append hitems

theorem outlines_function {f : FunctionDoc} (h : f.description = "") :
    Outlines (functionLines f) (functionOutline f) := by
  have hheading : Outlines ["### " ++ f.name, ""] [.line ("### " ++ f.name)] :=
    outlines_heading (beginsWith_append (by decide) f.name)
  have hdescription : Outlines (descriptionLines f.description) [] := by
    rw [descriptionLines, if_pos h]
    exact .nil
  have hblock := outlines_block (signature_ne_fence f)
  have hfunction := ((((hheading.append (outlines_native f.isNative)).append hdescription).append hblock).append
    (outlines_parameters f.parameters)).append (outlines_return f.returns)
  simp only [List.append_nil] at hfunction
  exact hfunction

theorem outlines_module {m : ModuleDoc} (h : m.Undescribed) : Outlines (moduleLines m) (moduleOutline m) := by
  obtain ⟨hmodule, hfunctions⟩ := h
  have hheading : Outlines ["## " ++ m.name, ""] [.line ("## " ++ m.name)] :=
    outlines_heading (beginsWith_append (by decide) m.name)
  have hbody : Outlines (if m.functions = [] then ["_Module has no functions._", ""]
      else m.functions.flatMap functionLines) (m.functions.flatMap functionOutline) := by
    split
    · next hnone =>
      rw [hnone]
      exact outlines_plain (by decide) rfl
    · exact .flatMap fun f hf => outlines_function (hfunctions f hf).1
  have hmoduleLines := hheading.append hbody
  rw [moduleLines, descriptionLines, if_pos hmodule, List.append_nil]
  exact hmoduleLines

theorem beginsWith_anchorItem (title : String) : BeginsWith "* [" (anchorItem title) := by
  rw [anchorItem, String.append_assoc, String.append_assoc, String.append_assoc]
  exact beginsWith_append (by decide) _

theorem not_beginsWith_anchorItem (title : String) : ¬ BeginsWith "#" (anchorItem title) := by
  rw [anchorItem, String.append_assoc, String.append_assoc, String.append_assoc]
  exact not_beginsWith_append (by decide) _

/-- Items are in the outline, but they need not be set apart. -/
theorem outlines_items (titles : List String) :
    Outlines (titles.map anchorItem ++ [""]) (titles.map fun title => .line (anchorItem title)) := by
  have hfence : ∀ title, anchorItem title ≠ fence := by
    intro title heq
    exact absurd (heq ▸ beginsWith_anchorItem title) (by decide)
  have hlines : ∀ l ∈ titles.map anchorItem ++ [""], l ≠ fence ∧ ¬ BeginsWith "#" l := by
    rw [List.forall_mem_append, List.forall_mem_map, List.forall_mem_singleton]
    exact ⟨fun title _ => ⟨hfence title, not_beginsWith_anchorItem title⟩, by decide⟩
  have hin : ∀ title, (Part.line (anchorItem title)).InOutline := fun title => .inr (beginsWith_anchorItem title)
  have hout : ¬ (Part.line "").InOutline := by decide
  refine ⟨_, stretch_lines hlines (by simp), ?_⟩
  rw [List.map_append, List.map_map, List.filter_append, List.filter_eq_self.mpr]
  · simp [hout, Function.comp_def]
  · exact List.forall_mem_map.mpr fun title _ => decide_eq_true (hin title)

theorem outlines_index (modules : List ModuleDoc) : Outlines (indexLines modules) (indexOutline modules) := by
  rw [indexLines, indexOutline]
  split
  · exact .nil
  · have hheading : Outlines ["## Index", ""] [.line "## Index"] := outlines_heading (by decide)
    have hindex := hheading.append (outlines_items (modules.map (·.name)))
    rw [List.map_map, List.map_map] at hindex
    rw [List.append_assoc]
    exact hindex

/-- The lines of a page are a stretch with the outline of the page. -/
theorem outlines_lines (project : String) {modules : List ModuleDoc} (h : ∀ m ∈ modules, m.Undescribed) :
    Outlines (lines project modules) (outline project modules) := by
  have htitle : Outlines ["# " ++ project, ""] [.line ("# " ++ project)] :=
    outlines_heading (beginsWith_append (by decide) project)
  have hmodules : Outlines (modules.flatMap moduleLines) (modules.flatMap moduleOutline) :=
    .flatMap fun m hm => outlines_module (h m hm)
  exact (htitle.append (outlines_index modules)).append hmodules

/-! ### The lines of a page -/

theorem oneLine_anchor (title : String) : OneLine (anchor title) := by
  have hother : isAlphanumeric '\n' = false := by decide
  intro hmem
  rcases Html.mem_anchor hmem with hletter | hhyphen
  · rw [hother] at hletter
    cases hletter
  · cases hhyphen

/-- A line and an empty line. -/
theorem oneLine_pair {l : String} (h : OneLine l) : ∀ x ∈ [l, ""], OneLine x :=
  List.forall_mem_cons.mpr ⟨h, List.forall_mem_singleton.mpr (by decide)⟩

theorem oneLine_description {description : String} (h : OneLine description) :
    ∀ l ∈ descriptionLines description, OneLine l := by
  rw [descriptionLines]
  split
  · simp
  · exact oneLine_pair h

theorem oneLine_parameterItem {p : ParameterDoc} (h : ∀ s ∈ p.strings, OneLine s) : OneLine (parameterItem p) := by
  have hname : OneLine p.name := h p.name (by simp [ParameterDoc.strings])
  have hdescription : OneLine p.description := h p.description (by simp [ParameterDoc.strings])
  have hitem := (((OneLine.append (s := "* **") (by decide) hname).append (t := "** (") (by decide)).append
    (ParameterDoc.oneLine_shownType h)).append (t := ")") (by decide)
  refine hitem.append ?_
  split
  · decide
  · exact OneLine.append (by decide) hdescription

theorem oneLine_function {f : FunctionDoc} (h : ∀ s ∈ f.strings, OneLine s) :
    ∀ l ∈ functionLines f, OneLine l := by
  have hname : OneLine f.name := h f.name (by simp [FunctionDoc.strings])
  have hdescription : OneLine f.description := h f.description (by simp [FunctionDoc.strings])
  have hparameters : ∀ l ∈ parameterLines f.parameters, OneLine l := by
    rw [parameterLines]
    split
    · simp
    · simp only [List.forall_mem_append, List.forall_mem_map, List.forall_mem_singleton]
      exact ⟨⟨by decide, fun p hp => oneLine_parameterItem (f.oneLine_of_parameter h hp)⟩, by decide⟩
  have hreturn : ∀ l ∈ returnLines f.returns, OneLine l := by
    cases hreturns : f.returns with
    | none => simp [returnLines]
    | some type =>
      have htype : OneLine type := h type (by simp [FunctionDoc.strings, hreturns])
      have hline := (OneLine.append (s := "**Returns** `") (by decide) htype).append (t := "`") (by decide)
      exact oneLine_pair hline
  have hheading : ∀ l ∈ ["### " ++ f.name, ""], OneLine l := oneLine_pair (OneLine.append (by decide) hname)
  have hnative : ∀ l ∈ (if f.isNative then ["> `native`", ""] else []), OneLine l := by
    split
    · decide
    · simp
  have hblock : ∀ l ∈ [fence, f.signature, fence, ""], OneLine l := by
    simp only [List.forall_mem_cons]
    exact ⟨by decide, f.oneLine_signature h, by decide, by decide, by simp⟩
  simp only [functionLines, List.forall_mem_append]
  exact ⟨⟨⟨⟨⟨hheading, hnative⟩, oneLine_description hdescription⟩, hblock⟩, hparameters⟩, hreturn⟩

theorem oneLine_module {m : ModuleDoc} (h : ∀ s ∈ m.strings, OneLine s) : ∀ l ∈ moduleLines m, OneLine l := by
  have hname : OneLine m.name := h m.name (by simp [ModuleDoc.strings])
  have hdescription : OneLine m.description := h m.description (by simp [ModuleDoc.strings])
  have hheading : ∀ l ∈ ["## " ++ m.name, ""], OneLine l := oneLine_pair (OneLine.append (by decide) hname)
  have hbody : ∀ l ∈ (if m.functions = [] then ["_Module has no functions._", ""]
      else m.functions.flatMap functionLines), OneLine l := by
    split
    · decide
    · rw [List.forall_mem_flatMap]
      exact fun f hf => oneLine_function (m.oneLine_of_function h hf)
  simp only [moduleLines, List.forall_mem_append]
  exact ⟨⟨hheading, oneLine_description hdescription⟩, hbody⟩

/-- The lines of a page are lines if its strings are. -/
theorem oneLine_lines {project : String} {modules : List ModuleDoc} (hproject : OneLine project)
    (h : ∀ m ∈ modules, ∀ s ∈ m.strings, OneLine s) : ∀ l ∈ lines project modules, OneLine l := by
  have htitle : ∀ l ∈ ["# " ++ project, ""], OneLine l := oneLine_pair (OneLine.append (by decide) hproject)
  have hitem : ∀ m ∈ modules, OneLine (anchorItem m.name) := by
    intro m hm
    have hname : OneLine m.name := h m hm m.name (by simp [ModuleDoc.strings])
    exact (((OneLine.append (s := "* [") (by decide) hname).append (t := "](#") (by decide)).append
      (oneLine_anchor m.name)).append (t := ")") (by decide)
  have hindex : ∀ l ∈ indexLines modules, OneLine l := by
    rw [indexLines]
    split
    · simp
    · simp only [List.forall_mem_append, List.forall_mem_map, List.forall_mem_singleton]
      exact ⟨⟨by decide, hitem⟩, by decide⟩
  have hmodules : ∀ l ∈ modules.flatMap moduleLines, OneLine l :=
    List.forall_mem_flatMap.mpr fun m hm => oneLine_module (h m hm)
  simp only [lines, List.forall_mem_append]
  exact ⟨⟨htitle, hindex⟩, hmodules⟩

/-- A page of names and types that are lines, without descriptions, has this outline and no more:
the title; if there are modules, the heading of the index and an item for each of them; then for
each module its heading, and for each of its functions a heading, a block with nothing but the
signature and, if there are parameters, their heading. Behind every heading is an empty line, and
one before every heading but the first line of the page. -/
theorem outline_page {project : String} {modules : List ModuleDoc} (hproject : OneLine project)
    (hlines : ∀ m ∈ modules, ∀ s ∈ m.strings, OneLine s) (hplain : ∀ m ∈ modules, m.Undescribed) :
    (parts (linesOf (page project modules))).filter Part.InOutline = outline project modules ∧
    ∀ before l after, parts (linesOf (page project modules)) = before ++ .line l :: after → BeginsWith "#" l →
      after.head? = some (.line "") ∧ (before = [] ∨ before.getLast? = some (.line "")) := by
  obtain ⟨ps, hstretch, hmarks⟩ := outlines_lines project hplain
  have hread : parts (linesOf (page project modules)) = ps := by
    have hreads := hstretch.reads []
    have hnil : parts [] = [] := rfl
    rw [List.append_nil, hnil, List.append_nil] at hreads
    rw [page, linesOf_unlines (oneLine_lines hproject hlines), hreads]
  rw [hread]
  refine ⟨hmarks, fun before l after hsplit hheading => ⟨?_, ?_⟩⟩
  · cases after with
    | nil =>
      have hlast : Part.line l = .line "" := hstretch.closed _ (by simp [hsplit])
      cases hlast
      exact absurd hheading not_isHeading_empty
    | cons p after =>
      have happly := List.isChain_iff_forall_rel_of_append_cons_cons.mp hstretch.apart hsplit
      exact congrArg some (happly.1 hheading)
  · rcases List.eq_nil_or_concat before with hnil | ⟨front, p, rfl⟩
    · exact .inl hnil
    · rw [List.concat_eq_append, List.append_assoc, List.singleton_append] at hsplit
      have happly := List.isChain_iff_forall_rel_of_append_cons_cons.mp hstretch.apart hsplit
      rw [happly.2 hheading]
      exact .inr (by simp)

/-- Names that look like headings, items and fences. -/
def thorny : List ModuleDoc :=
  [⟨"Index", "", [⟨"# g", "", [⟨"* [x", none, ""⟩], true, some "`"⟩, ⟨"```", "", [], false, none⟩]⟩, ⟨"", "", []⟩]

theorem outline_page_thorny :
    OneLine "P" ∧ (∀ m ∈ thorny, ∀ s ∈ m.strings, OneLine s) ∧ (∀ m ∈ thorny, m.Undescribed) ∧
      (parts (linesOf (page "P" thorny))).filter Part.InOutline =
        [.line "# P", .line "## Index", .line "* [Index](#index)", .line "* [](#)", .line "## Index",
          .line "### # g", .block ["# g(* [x: ?): `"], .line "#### Parameters", .line "### ```",
          .block ["```()"], .line "## "] ∧
      ∀ before after, parts (linesOf (page "P" thorny)) = before ++ .line "### ```" :: after →
        after.head? = some (.line "") ∧ (before = [] ∨ before.getLast? = some (.line "")) := by
  have hproject : OneLine "P" := by decide
  have hlines : ∀ m ∈ thorny, ∀ s ∈ m.strings, OneLine s := by decide
  have hplain : ∀ m ∈ thorny, m.Undescribed := by simp [thorny, ModuleDoc.Undescribed, FunctionDoc.Undescribed]
  obtain ⟨houtline, hapart⟩ := outline_page hproject hlines hplain
  exact ⟨hproject, hlines, hplain, houtline.trans (by decide +kernel),
    fun before after hsplit => hapart before _ after hsplit (by decide)⟩

end Markdown
end ApiReference
