/-
# What a page shows

A page shows everything of a documentation but the descriptions of parameters, and a missing
type of a parameter as a question mark (`ModuleDoc.shown`). Two pages are the same if and only
if their projects are and the same is shown of their modules (`page_eq_page_iff`).

A page is read back part by part (`Tells`): data goes up to the next mark of markup, and a
part that may be left out begins like none of those that may follow it. Only a description
begins like other paragraphs do, but no tag can be in it, so that the tag behind the data tells
them apart (`not_starts_description`). The signature of a function is told as a whole; its name
is what is left of it without the parameters and the type of the result, which the page shows
a second time (`shown_eq_of_signature`).

Key definitions: `ParameterDoc.shown`, `FunctionDoc.shown`, `ModuleDoc.shown`, `Bounds`.
Key theorems: `tells_data`, `not_starts_description`, `tells_function`, `tells_module`,
`tells_pieces`, `page_shown`, `page_eq_page_iff`.
-/
import ApiReference.Proofs.Output.Escaping
import Mathlib.Data.List.TakeWhile

namespace ApiReference

/-- What is shown of a parameter: its name and its type, a question mark if there is none. -/
def ParameterDoc.shown (p : ParameterDoc) : ParameterDoc := ⟨p.name, some p.shownType, ""⟩

/-- What is shown of a function: everything, of its parameters what is shown of them. -/
def FunctionDoc.shown (f : FunctionDoc) : FunctionDoc := { f with parameters := f.parameters.map .shown }

/-- What is shown of a module: everything, of its functions what is shown of them. -/
def ModuleDoc.shown (m : ModuleDoc) : ModuleDoc := { m with functions := m.functions.map .shown }

theorem ParameterDoc.shown_eq_iff (p q : ParameterDoc) :
    p.shown = q.shown ↔ (p.name, p.shownType) = (q.name, q.shownType) := by
  simp [shown]

theorem ParameterDoc.signature_shown (p : ParameterDoc) : p.shown.signature = p.signature := rfl

theorem FunctionDoc.signature_shown (f : FunctionDoc) : f.shown.signature = f.signature := by
  have hparameters : f.shown.parameters.map ParameterDoc.signature = f.parameters.map ParameterDoc.signature := by
    rw [shown, List.map_map]
    exact List.map_congr_left fun p _ => p.signature_shown
  rw [signature, hparameters]
  rfl

/-- The name of a function is what is left of its signature. -/
theorem FunctionDoc.shown_eq_of_signature {f g : FunctionDoc} (hs : f.signature = g.signature)
    (hn : f.isNative = g.isNative) (hd : f.description = g.description)
    (hp : f.parameters.map ParameterDoc.shown = g.parameters.map ParameterDoc.shown)
    (hr : f.returns = g.returns) : f.shown = g.shown := by
  have hparameters : f.parameters.map ParameterDoc.signature = g.parameters.map ParameterDoc.signature := by
    have hmap := congrArg (List.map ParameterDoc.signature) hp
    rwa [List.map_map, List.map_map] at hmap
  have hname : f.name = g.name := by
    rw [signature, signature, hparameters, hr] at hs
    simpa only [String.append_left_inj] using hs
  rw [shown, shown, FunctionDoc.mk.injEq]
  exact ⟨hname, hd, hp, hn, hr⟩

namespace Html

/-! ### Pieces that are told -/

section Pieces
variable {α β β' : Type} {f g : α → List Piece} {key : α → β} {key' : α → β'} {Rest Rest' : List Char → Prop}

theorem chars_markup (text : String) (ps : List Piece) : chars (.markup text :: ps) = text.toList ++ chars ps := rfl

theorem chars_flatMap (as : List α) : chars (as.flatMap f) = as.flatMap fun a => chars (f a) := by
  rw [chars, List.flatMap_assoc]
  rfl

theorem tells_cons (text : String) (h : Tells (fun a => chars (f a)) key Rest) :
    Tells (fun a => chars (.markup text :: f a)) key Rest :=
  h.const_append text.toList

theorem tells_append (h : Tells (fun a => chars (f a)) key Rest) (h' : Tells (fun a => chars (g a)) key' Rest')
    (hr : ∀ a xs, Rest' xs → Rest (chars (g a) ++ xs)) :
    Tells (fun a => chars (f a ++ g a)) (fun a => (key a, key' a)) Rest' := by
  simp only [chars_append]
  exact h.append h' hr

theorem tells_append_const (ps : List Piece) (h : Tells (fun a => chars (f a)) key Rest)
    (hr : ∀ xs, Rest' xs → Rest (chars ps ++ xs)) : Tells (fun a => chars (f a ++ ps)) key Rest' := by
  simp only [chars_append]
  exact h.append_const (chars ps) hr

/-- Pieces for each of a list, if nothing that follows the last ones begins like more of them. -/
theorem tells_flatMap (h : Tells (fun a => chars (f a)) key Rest') (hrest : ∀ xs, Rest xs → Rest' xs)
    (hitem : ∀ a xs, Rest' xs → Rest' (chars (f a) ++ xs)) (hnot : ∀ a xs, ¬ Rest (chars (f a) ++ xs)) :
    Tells (fun as : List α => chars (as.flatMap f)) (fun as => as.map key) Rest := by
  simp only [chars_flatMap]
  exact .flatMap hrest hitem h fun a xs _ => hnot a xs

theorem rest_flatMap (hrest : ∀ xs, Rest xs → Rest' xs) (hitem : ∀ a xs, Rest' xs → Rest' (chars (f a) ++ xs))
    (as : List α) (xs : List Char) (hx : Rest xs) : Rest' (chars (as.flatMap f) ++ xs) := by
  rw [chars_flatMap]
  exact Tells.rest_flatMap hrest hitem as hx

/-- Pieces that are left out for one value. -/
theorem tells_ite_eq {z : α} [DecidablePred (· = z)] (h : Tells (fun a => chars (f a)) key Rest)
    (hnot : ∀ a xs, ¬ Rest (chars (f a) ++ xs)) :
    Tells (fun a => chars (if a = z then [] else f a)) key Rest := by
  simp only [apply_ite chars]
  exact h.ite_eq fun a xs _ => hnot a xs

theorem chars_of_head? {ps : List Piece} {text : String} (h : ps.head? = some (.markup text)) (xs : List Char) :
    chars ps ++ xs = text.toList ++ (chars ps.tail ++ xs) := by
  obtain ⟨ps', rfl⟩ := List.head?_eq_some_iff.mp h
  rw [chars_markup, List.append_assoc, List.tail_cons]

theorem starts_of_head? {ss : List String} {ps : List Piece} {text : String} (hps : ps.head? = some (.markup text))
    (h : ∃ s ∈ ss, s.toList <+: text.toList) (xs : List Char) : Starts ss (chars ps ++ xs) := by
  obtain ⟨s, hs, hprefix⟩ := h
  rw [chars_of_head? hps]
  exact ⟨s, hs, hprefix.trans (List.prefix_append _ _)⟩

theorem not_starts_of_head? {ss : List String} {ps : List Piece} {text : String}
    (hps : ps.head? = some (.markup text)) (h : ∀ s ∈ ss, Apart s text) (xs : List Char) :
    ¬ Starts ss (chars ps ++ xs) := by
  rw [chars_of_head? hps]
  exact not_starts_append h _

/-- Markup that stands if something holds tells whether it does. -/
theorem tells_flag {ss : List String} {text : String} (p : α → Prop) [DecidablePred p]
    (h : ∀ s ∈ ss, Apart s text) :
    Tells (fun a => chars (if p a then [.markup text] else [])) (fun a => decide (p a)) (Starts ss) := by
  have hnot : ∀ xs, ¬ Starts ss (chars [.markup text] ++ xs) := not_starts_of_head? rfl h
  intro a b xs ys hx hy heq
  by_cases ha : p a <;> by_cases hb : p b <;>
    simp only [ha, hb, if_true, if_false, decide_true, decide_false] at heq ⊢
  · exact ⟨trivial, List.append_cancel_left heq⟩
  · change chars [.markup text] ++ xs = ys at heq
    rw [← heq] at hy
    exact absurd hy (hnot xs)
  · change xs = chars [.markup text] ++ ys at heq
    rw [heq] at hx
    exact absurd hx (hnot ys)
  · exact ⟨trivial, heq⟩

end Pieces

/-- Markup that shows where data before it ends: it has a mark, and before that nothing that
data would have replaced. -/
def Bounds (after : String) : Prop :=
  after.toList.any (IsMark ·) ∧
    (after.toList.takeWhile (¬ IsMark ·)).flatMap escapeChar = after.toList.takeWhile (¬ IsMark ·)

instance (after : String) : Decidable (Bounds after) := inferInstanceAs (Decidable (_ ∧ _))

section Data
variable {α : Type}

theorem tells_data (field : α → String) (after : String) (h : Bounds after) :
    Tells (fun a => chars [.data (field a), .markup after]) field fun _ => True := by
  obtain ⟨hmark, hbefore⟩ := h
  obtain ⟨c, hc, hmark⟩ := List.any_eq_true.mp hmark
  let behind := after.toList.takeWhile (¬ IsMark ·)
  let tail := after.toList.dropWhile (¬ IsMark ·)
  have htail : tail ≠ [] := by
    intro hnil
    have hkept := List.dropWhile_eq_nil_iff.mp hnil c hc
    exact of_decide_eq_true hkept (of_decide_eq_true hmark)
  have hfirst : tail.head?.any (IsMark ·) := by
    have hhead := List.head_dropWhile_not (¬ IsMark ·) htail
    rw [List.head?_eq_some_head htail, Option.any_some, decide_eq_true_eq]
    exact Decidable.not_not.mp (of_decide_eq_false hhead)
  have hwrite : (fun a => chars [.data (field a), .markup after]) =
      fun a => ((escape (field a)).toList ++ behind) ++ tail := by
    funext a
    rw [List.append_assoc, List.takeWhile_append_dropWhile]
    simp [chars, Piece.text]
  rw [hwrite]
  exact ((tells_escape behind hbefore).comap field).append_const tail fun xs _ => marked_append hfirst xs

theorem tells_around (before : String) (field : α → String) (after : String) (h : Bounds after) :
    Tells (fun a => chars (around before (field a) after)) field fun _ => True :=
  tells_cons before (tells_data field after h)

end Data

/-! ### Functions

Each part is told if what follows it is what may stand behind it, so beside each part that may
be left out stands a lemma that what comes then, too, may stand behind the part before. -/

/-- What stands behind a function. -/
def behindFunction : List String := ["<h3>", "</section>"]

/-- What stands behind the parameters of a function. -/
def behindParameters : List String := "<p>Returns <code>" :: behindFunction

/-- What stands behind a description. -/
def behindDescription : List String := "<p><em>" :: "<table>" :: behindParameters

/-- A description is not taken for another paragraph: of these, the tag behind the data
differs. -/
theorem not_starts_description (text : String) (xs : List Char) :
    ¬ Starts behindDescription (chars (around "<p>" text "</p>\n") ++ xs) := by
  -- other paragraphs, as the data after `<p>` and the tag behind it
  let others := [("", "<em>"), ("Returns ", "<code>")]
  have hbehind : ∀ s ∈ behindDescription, Apart s "<p>" ∨
      ∃ p ∈ others, s.toList = "<p>".toList ++ ((escape p.1).toList ++ p.2.toList) := by decide
  have htags : ∀ p ∈ others, p.2.toList.head?.any (IsMark ·) ∧ Apart p.2 "</p>\n" := by decide
  have hchars : chars (around "<p>" text "</p>\n") ++ xs =
      "<p>".toList ++ ((escape text).toList ++ ("</p>\n".toList ++ xs)) := by
    simp [chars, around, Piece.text]
  rintro ⟨s, hs, zs, heq⟩
  rw [hchars] at heq
  rcases hbehind s hs with hapart | ⟨p, hp, hother⟩
  · exact hapart.append_ne _ _ heq
  · obtain ⟨hmark, hapart⟩ := htags p hp
    rw [hother, List.append_assoc, List.append_assoc] at heq
    exact escape_append_ne hmark (by decide) hapart _ _ _ _ (List.append_cancel_left heq)

theorem tells_description : Tells (fun text => chars (descriptionPieces text)) id (Starts behindDescription) := by
  have hparagraph : Tells (fun text => chars (around "<p>" text "</p>\n")) id (Starts behindDescription) :=
    (tells_around "<p>" id "</p>\n" (by decide)).mono fun _ _ => trivial
  exact tells_ite_eq hparagraph not_starts_description

theorem tells_parameter : Tells (fun p => chars (parameterPieces p)) ParameterDoc.shown fun _ => True := by
  have hname := tells_around "  <tr><td><code>" ParameterDoc.name "</code></td><td><code>" (by decide)
  have htype := tells_data ParameterDoc.shownType "</code></td></tr>\n" (by decide)
  exact (tells_append hname htype fun _ _ _ => trivial).of_key fun p q => (p.shown_eq_iff q).mpr

theorem tells_parameters :
    Tells (fun ps => chars (parametersPieces ps)) (List.map ParameterDoc.shown) (Starts behindParameters) := by
  have hrows : Tells (fun ps => chars (ps.flatMap parameterPieces)) (List.map ParameterDoc.shown)
      (Starts ["</table>"]) :=
    tells_flatMap tells_parameter (fun _ _ => trivial) (fun _ _ _ => trivial)
      fun _ => not_starts_of_head? rfl (by decide)
  have hopened := tells_cons "<table>\n  <tr><th>Parameter</th><th>Type</th></tr>\n" hrows
  have htable := tells_append_const [.markup "</table>\n"] hopened
    fun xs (_ : Starts behindParameters xs) => starts_of_head? rfl (by decide) xs
  exact tells_ite_eq htable fun _ => not_starts_of_head? rfl (by decide)

theorem starts_parameters (ps : List ParameterDoc) (xs : List Char) (h : Starts behindParameters xs) :
    Starts behindDescription (chars (parametersPieces ps) ++ xs) := by
  rw [parametersPieces]
  split
  · exact h.mono fun _ hs => .tail _ (.tail _ hs)
  · exact starts_of_head? rfl (by decide) xs

theorem tells_return : Tells (fun r => chars (returnPieces r)) id (Starts behindFunction) := by
  have hpieces : ∀ r, chars (returnPieces r) =
      if r = none then [] else chars (around "<p>Returns <code>" (r.getD "") "</code></p>\n") := by
    rintro (_ | type) <;> rfl
  have hparagraph := tells_around "<p>Returns <code>" (fun r : Option String => r.getD "") "</code></p>\n" (by decide)
  have hite := (hparagraph.mono fun xs (_ : Starts behindFunction xs) => trivial).ite (p := (· = none))
    fun r xs _ _ => not_starts_of_head? rfl (by decide) xs
  have hkeys : ∀ r : Option String, (if r = none then none else some (r.getD "")) = r := by
    rintro (_ | type) <;> rfl
  simp only [hpieces]
  refine hite.of_key fun r r' hkey => ?_
  rwa [hkeys, hkeys] at hkey

theorem starts_return (r : Option String) (xs : List Char) (h : Starts behindFunction xs) :
    Starts behindParameters (chars (returnPieces r) ++ xs) := by
  cases r with
  | none => exact h.mono fun _ hs => .tail _ hs
  | some type => exact starts_of_head? rfl (by decide) xs

/-- A function is told up to what is not shown of its parameters. -/
theorem tells_function : Tells (fun f => chars (functionPieces f)) FunctionDoc.shown (Starts behindFunction) := by
  have hsignature := tells_around "<h3><code>" FunctionDoc.signature "</code>" (by decide)
  have hnative : Tells (fun f : FunctionDoc => chars
        (if f.isNative then [.markup " <span class=\"tag tag-native\">native</span>"] else []))
      (fun f => decide (f.isNative = true)) (Starts ["</h3>"]) := tells_flag _ (by decide)
  have hheading := tells_append_const [.markup "</h3>\n"] (tells_append hsignature hnative fun _ _ _ => trivial)
    fun xs (_ : True) => starts_of_head? rfl (by decide) xs
  have hdescribed := tells_append hheading (tells_description.comap FunctionDoc.description) fun _ _ _ => trivial
  have hparameters := tells_append hdescribed (tells_parameters.comap FunctionDoc.parameters)
    fun f xs => starts_parameters f.parameters xs
  have hfunction := tells_append hparameters (tells_return.comap FunctionDoc.returns)
    fun f xs => starts_return f.returns xs
  refine hfunction.of_key fun f g hkey => ?_
  simp only [Prod.mk.injEq, decide_eq_decide] at hkey
  obtain ⟨⟨⟨⟨hs, hn⟩, hd⟩, hp⟩, hr⟩ := hkey
  exact FunctionDoc.shown_eq_of_signature hs (Bool.eq_iff_iff.mpr hn) hd hp hr

/-! ### Modules -/

theorem starts_note (p : Prop) [Decidable p] (xs : List Char) (h : Starts behindFunction xs) :
    Starts behindDescription (chars (if p then [.markup "<p><em>No functions.</em></p>\n"] else []) ++ xs) := by
  split
  · exact starts_of_head? rfl (by decide) xs
  · exact h.mono fun _ hs => .tail _ (.tail _ (.tail _ hs))

theorem starts_function (f : FunctionDoc) (xs : List Char) :
    Starts behindFunction (chars (functionPieces f) ++ xs) :=
  starts_of_head? rfl (by decide) xs

theorem starts_functions (fs : List FunctionDoc) (xs : List Char) (h : Starts ["</section>"] xs) :
    Starts behindFunction (chars (fs.flatMap functionPieces) ++ xs) :=
  rest_flatMap (fun _ h => h.mono fun _ hs => .tail _ hs) (fun f xs _ => starts_function f xs) fs xs h

/-- A module is told up to what is not shown of its functions. -/
theorem tells_module : Tells (fun m => chars (modulePieces m)) ModuleDoc.shown fun _ => True := by
  have hsection := tells_around "<section id=\"" sectionId "\">\n" (by decide)
  have hname := tells_around "<h2>" ModuleDoc.name "</h2>\n" (by decide)
  have hnote : Tells (fun m : ModuleDoc => chars
        (if m.functions = [] then [.markup "<p><em>No functions.</em></p>\n"] else []))
      (fun m => decide (m.functions = [])) (Starts behindFunction) := tells_flag _ (by decide)
  have hfunctions : Tells (fun fs => chars (fs.flatMap functionPieces)) (List.map FunctionDoc.shown)
      (Starts ["</section>"]) :=
    tells_flatMap tells_function (fun xs h => h.mono fun _ hs => .tail _ hs) (fun f xs _ => starts_function f xs)
      fun f => not_starts_of_head? rfl (by decide)
  have hheading := tells_append hsection hname fun _ _ _ => trivial
  have hdescribed := tells_append hheading (tells_description.comap ModuleDoc.description) fun _ _ _ => trivial
  have hnoted := tells_append hdescribed hnote fun m xs => starts_note (m.functions = []) xs
  have hbody := tells_append hnoted (hfunctions.comap ModuleDoc.functions) fun m xs =>
    starts_functions m.functions xs
  have hmodule := tells_append_const [.markup "</section>\n"] hbody
    fun xs (_ : True) => starts_of_head? rfl (by decide) xs
  refine hmodule.of_key fun m m' hkey => ?_
  simp only [Prod.mk.injEq] at hkey
  obtain ⟨⟨⟨⟨-, hn⟩, hd⟩, -⟩, hf⟩ := hkey
  rw [ModuleDoc.shown, ModuleDoc.shown, ModuleDoc.mk.injEq]
  exact ⟨hn, hd, hf⟩

theorem tells_link : Tells (fun m => chars (linkPieces m)) (fun m => (sectionId m, m.name)) fun _ => True := by
  have htarget := tells_around "  <li><a href=\"#" sectionId "\">" (by decide)
  have hname := tells_data ModuleDoc.name "</a></li>\n" (by decide)
  exact tells_append htarget hname fun _ _ _ => trivial

/-! ### The page -/

/-- What stands behind the index. -/
def behindIndex : List String := ["<section", "</body>"]

theorem tells_index : Tells (fun ms => chars (indexPieces ms)) (List.map fun m => (sectionId m, m.name))
    (Starts behindIndex) := by
  have hlinks : Tells (fun ms => chars (ms.flatMap linkPieces)) (List.map fun m => (sectionId m, m.name))
      (Starts ["</ul>"]) :=
    tells_flatMap tells_link (fun _ _ => trivial) (fun _ _ _ => trivial)
      fun _ => not_starts_of_head? rfl (by decide)
  have hopened := tells_cons "<h2>Modules</h2>\n<ul>\n" hlinks
  have hindex := tells_append_const [.markup "</ul>\n"] hopened
    fun xs (_ : Starts behindIndex xs) => starts_of_head? rfl (by decide) xs
  exact tells_ite_eq hindex fun _ => not_starts_of_head? rfl (by decide)

theorem starts_modules (ms : List ModuleDoc) (xs : List Char) (h : Starts ["</body>"] xs) :
    Starts behindIndex (chars (ms.flatMap modulePieces) ++ xs) :=
  rest_flatMap (fun _ h => h.mono fun _ hs => .tail _ hs)
    (fun _ xs _ => starts_of_head? rfl (by decide) xs) ms xs h

/-- The pieces of a page tell the project and what is shown of its modules. -/
theorem tells_pieces : Tells (fun i : String × List ModuleDoc => chars (pieces i.1 i.2))
    (fun i => (i.1, i.2.map ModuleDoc.shown)) fun _ => True := by
  have htitle := tells_around "<title>" (fun i : String × List ModuleDoc => i.1) " API Documentation</title>\n" (by decide)
  have hheading := tells_around "<h1>" (fun i : String × List ModuleDoc => i.1) "</h1>\n" (by decide)
  have hmodules : Tells (fun ms => chars (ms.flatMap modulePieces)) (List.map ModuleDoc.shown)
      (Starts ["</body>"]) :=
    tells_flatMap tells_module (fun _ _ => trivial) (fun _ _ _ => trivial)
      fun _ => not_starts_of_head? rfl (by decide)
  have hhead := tells_append_const [.markup style, .markup "</head>\n<body>\n"]
    (tells_cons "<!DOCTYPE html>\n<html>\n<head>\n<meta charset=\"utf-8\">\n" htitle) fun _ (_ : True) => trivial
  have htop := tells_append hhead hheading fun _ _ _ => trivial
  have hindex := tells_append htop (tells_index.comap Prod.snd) fun _ _ _ => trivial
  have hbody := tells_append hindex (hmodules.comap Prod.snd) fun i xs => starts_modules i.2 xs
  have hpage := tells_append_const [.markup "</body>\n</html>\n"] hbody
    fun xs (_ : True) => starts_of_head? rfl (by decide) xs
  -- the project stands twice, and the links of the index say nothing that the modules do not
  refine hpage.of_key fun i j hkey => ?_
  simp only [Prod.mk.injEq] at hkey
  obtain ⟨⟨⟨hproject, -⟩, -⟩, hshown⟩ := hkey
  exact Prod.ext hproject hshown

/-! ### Nothing else is shown -/

theorem parametersPieces_shown (ps : List ParameterDoc) :
    parametersPieces (ps.map ParameterDoc.shown) = parametersPieces ps := by
  simp only [parametersPieces, List.map_eq_nil_iff, List.flatMap_map]
  rfl

theorem functionPieces_shown (f : FunctionDoc) : functionPieces f.shown = functionPieces f := by
  rw [functionPieces, functionPieces, f.signature_shown]
  exact congrArg (fun ps => _ ++ ps ++ returnPieces f.returns) (parametersPieces_shown f.parameters)

theorem modulePieces_shown (m : ModuleDoc) : modulePieces m.shown = modulePieces m := by
  have hfunctions : m.shown.functions.flatMap functionPieces = m.functions.flatMap functionPieces := by
    rw [ModuleDoc.shown, List.flatMap_map]
    exact List.flatMap_congr fun f _ => functionPieces_shown f
  have hempty : m.shown.functions = [] ↔ m.functions = [] := List.map_eq_nil_iff
  simp only [modulePieces, hfunctions, hempty]
  rfl

/-- The page of what is shown is the page. -/
theorem page_shown (project : String) (modules : List ModuleDoc) :
    page project (modules.map ModuleDoc.shown) = page project modules := by
  have hindex : indexPieces (modules.map ModuleDoc.shown) = indexPieces modules := by
    simp only [indexPieces, List.map_eq_nil_iff, List.flatMap_map]
    rfl
  have hmodules : (modules.map ModuleDoc.shown).flatMap modulePieces = modules.flatMap modulePieces := by
    rw [List.flatMap_map]
    exact List.flatMap_congr fun m _ => modulePieces_shown m
  rw [page, page, pieces, pieces, hindex, hmodules]

/-- A page tells the project and everything that is shown of the modules, and nothing else. -/
theorem page_eq_page_iff (project project' : String) (modules modules' : List ModuleDoc) :
    page project modules = page project' modules' ↔
      project = project' ∧ modules.map ModuleDoc.shown = modules'.map ModuleDoc.shown := by
  constructor
  · intro h
    have hchars : chars (pieces project modules) = chars (pieces project' modules') := by
      rw [← toList_page, ← toList_page, h]
    have htold := @tells_pieces (project, modules) (project', modules') [] [] trivial trivial
      (congrArg (· ++ []) hchars)
    exact Prod.mk.inj htold.1
  · rintro ⟨rfl, hshown⟩
    calc page project modules = page project (modules.map ModuleDoc.shown) := (page_shown project modules).symm
      _ = page project (modules'.map ModuleDoc.shown) := by rw [hshown]
      _ = page project modules' := page_shown project modules'

end Html
end ApiReference
