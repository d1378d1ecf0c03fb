/-
# What console text tells

Console text prints of a module its name, its description and the signatures of its functions,
each on a line of its own. A signature is told by its line if the names and the types of the
parameters have no punctuation of signatures in them and no type looks like a missing one
(`tells_signature`): a name ends at the first such character, and so does a type. The type of the
result goes up to the end of the line and may be anything.

So two console texts are the same if and only if what they print of their modules is
(`text_eq_text_iff`); whether a function is native and what is said of functions and parameters
is not printed.

Key definitions: `Unpunctuated`, `FunctionDoc.Legible`, `FunctionDoc.printed`, `ModuleDoc.printed`.
Key theorems: `tells_unpunctuated`, `tells_parameters`, `tells_signature`, `tells_moduleLines`,
`text_eq_text_iff`.
-/
import ApiReference.Output.Console
import ApiReference.Proofs.Output.Lines
import ApiReference.Proofs.Telling
import Mathlib.Data.List.Forall2

namespace ApiReference

/-- The punctuation of signatures. -/
def punctuation : List Char := ['(', ')', ',', ':']

/-- A string without punctuation of signatures. -/
def Unpunctuated (s : String) : Prop := ∀ c ∈ s.toList, c ∉ punctuation

instance (s : String) : Decidable (Unpunctuated s) := List.decidableBAll _ _

/-- Name and type of a parameter have no punctuation, and the type does not look like a missing
one. -/
structure ParameterDoc.Legible (p : ParameterDoc) : Prop where
  name : Unpunctuated p.name
  type : ∀ type ∈ p.type, Unpunctuated type ∧ type ≠ "?"

/-- The name of a function has no punctuation, and neither have its parameters. -/
structure FunctionDoc.Legible (f : FunctionDoc) : Prop where
  name : Unpunctuated f.name
  parameters : ∀ p ∈ f.parameters, p.Legible

instance (p : ParameterDoc) : Decidable p.Legible :=
  decidable_of_iff (Unpunctuated p.name ∧ ∀ type ∈ p.type, Unpunctuated type ∧ type ≠ "?")
    ⟨fun h => ⟨h.1, h.2⟩, fun h => ⟨h.name, h.type⟩⟩

instance (f : FunctionDoc) : Decidable f.Legible :=
  decidable_of_iff (Unpunctuated f.name ∧ ∀ p ∈ f.parameters, p.Legible)
    ⟨fun h => ⟨h.1, h.2⟩, fun h => ⟨h.name, h.parameters⟩⟩

/-- What is printed of a parameter: its name and its type. -/
def ParameterDoc.printed (p : ParameterDoc) : String × Option String := (p.name, p.type)

/-- What is printed of a function: its name, its parameters and the type of its result. -/
def FunctionDoc.printed (f : FunctionDoc) : String × List (String × Option String) × Option String :=
  (f.name, f.parameters.map ParameterDoc.printed, f.returns)

/-- What is printed of a module: its name, its description and its functions. -/
def ModuleDoc.printed (m : ModuleDoc) :
    String × String × List (String × List (String × Option String) × Option String) :=
  (m.name, m.description, m.functions.map FunctionDoc.printed)

namespace Console

/-! ### Signatures -/

/-- A text that goes on with punctuation. -/
def Punctuated (xs : List Char) : Prop := ∃ c ∈ punctuation, xs.head? = some c

/-- Characters that are no punctuation end where the punctuation begins. -/
theorem append_inj_of_punctuated {as bs xs ys : List Char} (has : ∀ c ∈ as, c ∉ punctuation)
    (hbs : ∀ c ∈ bs, c ∉ punctuation) (hx : Punctuated xs) (hy : Punctuated ys) (h : as ++ xs = bs ++ ys) :
    as = bs ∧ xs = ys := by
  have hends : ∀ {cs zs : List Char} {c : Char}, c ∉ punctuation → Punctuated zs → c :: cs ≠ zs := by
    rintro cs zs c hc ⟨d, hd, hhead⟩ rfl
    exact hc (Option.some.inj hhead ▸ hd)
  induction as generalizing bs with
  | nil =>
    cases bs with
    | nil => exact ⟨rfl, h⟩
    | cons b bs => exact absurd h.symm (hends (hbs b List.mem_cons_self) hx)
  | cons a as ih =>
    cases bs with
    | nil => exact absurd h (hends (has a List.mem_cons_self) hy)
    | cons b bs =>
      obtain ⟨rfl, htail⟩ := List.cons.inj h
      obtain ⟨rfl, hend⟩ := ih (List.forall_mem_cons.mp has).2 (List.forall_mem_cons.mp hbs).2 htail
      exact ⟨rfl, hend⟩

/-- A string without punctuation is told by what stands before the next punctuation. -/
theorem tells_unpunctuated : Tells (fun s : {s : String // Unpunctuated s} => s.1.toList) (fun s => s.1) Punctuated := by
  intro s t xs ys hx hy heq
  obtain ⟨hsame, hend⟩ := append_inj_of_punctuated s.2 t.2 hx hy heq
  exact ⟨String.toList_inj.mp hsame, hend⟩

theorem unpunctuated_shownType {p : ParameterDoc} (h : p.Legible) : Unpunctuated p.shownType := by
  rw [ParameterDoc.shownType]
  cases htype : p.type with
  | none => exact (by decide : Unpunctuated "?")
  | some type => exact (h.type type htype).1

/-- What is shown for a type tells it, if no type looks like a missing one. -/
theorem type_eq_of_shownType {p q : ParameterDoc} (hp : p.Legible) (hq : q.Legible)
    (h : p.shownType = q.shownType) : p.type = q.type := by
  have hmissing : ∀ {r : ParameterDoc}, r.Legible → (r.type = none ↔ r.shownType = "?") := by
    intro r hr
    rw [ParameterDoc.shownType]
    cases htype : r.type with
    | none => simp
    | some type => simpa using (hr.type type htype).2
  cases htype : p.type with
  | none =>
    rw [(hmissing hp).mp htype, eq_comm, ← hmissing hq] at h
    exact h.symm
  | some type =>
    cases htype' : q.type with
    | none =>
      rw [(hmissing hq).mp htype', ← hmissing hp, htype] at h
      cases h
    | some type' =>
      rw [ParameterDoc.shownType, ParameterDoc.shownType, htype, htype'] at h
      exact congrArg some h

/-- A parameter is told by what stands before the next punctuation. -/
theorem tells_parameter : Tells (fun p : {p : ParameterDoc // p.Legible} => p.1.signature.toList)
    (fun p => p.1.printed) Punctuated := by
  have hname : Tells (fun p : {p : ParameterDoc // p.Legible} => p.1.name.toList ++ ": ".toList) (fun p => p.1.name)
      fun _ => True :=
    (tells_unpunctuated.comap fun p : {p : ParameterDoc // p.Legible} => ⟨p.1.name, p.2.name⟩).append_const _
      fun _ _ => ⟨':', by decide, rfl⟩
  have htype := tells_unpunctuated.comap fun p : {p : ParameterDoc // p.Legible} =>
    ⟨p.1.shownType, unpunctuated_shownType p.2⟩
  have hboth := hname.append htype fun _ _ _ => trivial
  simp only [← String.toList_append] at hboth
  refine hboth.of_key fun p q hkey => ?_
  obtain ⟨hname, htype⟩ := Prod.mk.inj hkey
  exact Prod.ext hname (type_eq_of_shownType p.2 q.2 htype)

/-- A parameter does not begin like what stands behind the last one. -/
theorem not_starts_parameter {p : ParameterDoc} (h : p.Legible) (xs : List Char) :
    ¬ Starts [")"] (p.signature.toList ++ xs) := by
  rintro ⟨s, hs, ys, heq⟩
  obtain rfl : s = ")" := List.mem_singleton.mp hs
  rw [ParameterDoc.signature, String.toList_append, String.toList_append] at heq
  cases hname : p.name.toList with
  | nil =>
    rw [hname] at heq
    cases heq
  | cons c cs =>
    rw [hname] at heq
    obtain ⟨rfl, -⟩ := List.cons.inj heq
    exact h.name ')' (hname ▸ List.mem_cons_self) (by decide)

theorem tells_parameters : Tells (fun ps : {ps : List ParameterDoc // ∀ p ∈ ps, p.Legible} =>
      (", ".intercalate (ps.1.map ParameterDoc.signature)).toList)
    (fun ps => ps.1.map ParameterDoc.printed) (Starts [")"]) := by
  have hclose : ∀ xs, Starts [")"] xs → Punctuated xs := by
    rintro xs ⟨s, hs, ys, rfl⟩
    obtain rfl : s = ")" := List.mem_singleton.mp hs
    exact ⟨')', by decide, rfl⟩
  have hcomma : ∀ xs, ¬ Starts [")"] (", ".toList ++ xs) := not_starts_append (by decide)
  have hlist := tells_parameter.intercalate hclose (fun xs => ⟨',', by decide, rfl⟩) hcomma
    fun p => not_starts_parameter p.2
  have hwrite : ∀ ps : List {p : ParameterDoc // p.Legible},
      ", ".toList.intercalate (ps.map fun p => p.1.signature.toList) =
        (", ".intercalate (ps.unattach.map ParameterDoc.signature)).toList := by
    intro ps
    rw [String.toList_intercalate, List.map_map]
    exact congrArg _ (List.map_subtype fun _ _ => rfl)
  have hkey : ∀ ps : List {p : ParameterDoc // p.Legible},
      (ps.map fun p => p.1.printed) = ps.unattach.map ParameterDoc.printed := fun _ => List.map_subtype fun _ _ => rfl
  simp only [hwrite, hkey] at hlist
  exact .unattach (fun ps => (", ".intercalate (ps.map ParameterDoc.signature)).toList) _ hlist

/-- What a signature has behind the parameters. -/
def resultText : Option String → String
  | some type => ": " ++ type
  | none => ""

theorem toList_signature (f : FunctionDoc) : f.signature.toList = f.name.toList ++ "(".toList ++
    ((", ".intercalate (f.parameters.map ParameterDoc.signature)).toList ++ ")".toList) ++
      (resultText f.returns).toList := by
  rw [FunctionDoc.signature, List.append_assoc]
  cases f.returns <;> simp only [String.toList_append, List.append_assoc, resultText]

/-- The type of a result is told if nothing follows it. -/
theorem tells_resultText : Tells (fun returns => (resultText returns).toList) (fun returns => returns) (· = []) := by
  rintro (_ | type) (_ | type') xs ys rfl rfl heq
  · exact ⟨rfl, rfl⟩
  · simp [resultText] at heq
  · simp [resultText] at heq
  · simp only [resultText, List.append_nil, String.toList_inj, String.append_right_inj] at heq
    exact ⟨congrArg some heq, rfl⟩

/-- A signature is told by its line. -/
theorem tells_signature : Tells (fun f : {f : FunctionDoc // f.Legible} => f.1.signature.toList)
    (fun f => f.1.printed) (· = []) := by
  have hname : Tells (fun f : {f : FunctionDoc // f.Legible} => f.1.name.toList ++ "(".toList) (fun f => f.1.name)
      fun _ => True :=
    (tells_unpunctuated.comap fun f : {f : FunctionDoc // f.Legible} => ⟨f.1.name, f.2.name⟩).append_const _
      fun _ _ => ⟨'(', by decide, rfl⟩
  have hparameters : Tells (fun f : {f : FunctionDoc // f.Legible} =>
        (", ".intercalate (f.1.parameters.map ParameterDoc.signature)).toList ++ ")".toList)
      (fun f => f.1.parameters.map ParameterDoc.printed) fun _ => True :=
    (tells_parameters.comap fun f : {f : FunctionDoc // f.Legible} => ⟨f.1.parameters, f.2.parameters⟩).append_const _
      fun xs _ => ⟨")", by simp, List.prefix_append _ _⟩
  have hcall := hname.append hparameters fun _ _ _ => trivial
  have hall := hcall.append (tells_resultText.comap fun f : {f : FunctionDoc // f.Legible} => f.1.returns)
    fun _ _ _ => trivial
  simp only [toList_signature]
  refine hall.of_key fun f g hkey => ?_
  simp only [Prod.mk.injEq] at hkey
  obtain ⟨⟨hname, hparameters⟩, hreturns⟩ := hkey
  rw [FunctionDoc.printed, FunctionDoc.printed, hname, hparameters, hreturns]

/-! ### Lines -/

/-- The line of a function. -/
def methodLine (f : FunctionDoc) : String := "   Method: " ++ f.signature ++ " "

theorem methodLine_inj {f g : FunctionDoc} : methodLine f = methodLine g ↔ f.signature = g.signature := by
  rw [methodLine, methodLine, String.append_left_inj, String.append_right_inj]

theorem printed_eq_of_methodLine {f g : FunctionDoc} (hf : f.Legible) (hg : g.Legible)
    (h : methodLine f = methodLine g) : f.printed = g.printed := by
  have hsignature : f.signature.toList ++ [] = g.signature.toList ++ [] := by rw [methodLine_inj.mp h]
  exact (@tells_signature ⟨f, hf⟩ ⟨g, hg⟩ [] [] rfl rfl hsignature).1

/-- The functions of a module are told by their lines and the empty line behind them. -/
theorem tells_methodLines : Tells (fun fs : {fs : List FunctionDoc // ∀ f ∈ fs, f.Legible} => fs.1.map methodLine)
    (fun fs => fs.1.map FunctionDoc.printed) (fun ls => ls.head? = some "") := by
  have hline : Tells (fun f : {f : FunctionDoc // f.Legible} => [methodLine f.1]) (fun f => f.1.printed) fun _ => True := by
    intro f g xs ys _ _ heq
    obtain ⟨hhead, htail⟩ := List.cons.inj heq
    exact ⟨printed_eq_of_methodLine f.2 g.2 hhead, htail⟩
  have hne : ∀ f, methodLine f ≠ "" := by
    intro f hempty
    have hchars := congrArg String.toList hempty
    simp [methodLine] at hchars
  have hlines : Tells (fun fs : List {f : FunctionDoc // f.Legible} => fs.flatMap fun f => [methodLine f.1])
      (fun fs => fs.map fun f => f.1.printed) (fun ls => ls.head? = some "") :=
    .flatMap (fun _ _ => trivial) (fun _ _ _ => trivial) hline fun f xs _ hhead => hne f.1 (Option.some.inj hhead)
  have hwrite : ∀ fs : List {f : FunctionDoc // f.Legible},
      (fs.flatMap fun f => [methodLine f.1]) = fs.unattach.map methodLine := by
    intro fs
    rw [← List.map_eq_flatMap, List.map_subtype fun _ _ => rfl]
  have hkey : ∀ fs : List {f : FunctionDoc // f.Legible},
      (fs.map fun f => f.1.printed) = fs.unattach.map FunctionDoc.printed := fun _ => List.map_subtype fun _ _ => rfl
  simp only [hwrite, hkey] at hlines
  exact .unattach (List.map methodLine) _ hlines

/-- A module is told by its lines. -/
theorem tells_moduleLines : Tells (fun m : {m : ModuleDoc // ∀ f ∈ m.functions, f.Legible} => moduleLines m.1)
    (fun m => m.1.printed) fun _ => True := by
  intro m n xs ys _ _ heq
  have hlines : ∀ m : ModuleDoc, ∀ xs, moduleLines m ++ xs =
      ("Module: " ++ m.name) :: ("Description: " ++ m.description) :: (m.functions.map methodLine ++ "" :: xs) := by
    intro m xs
    simp only [moduleLines, List.append_assoc]
    rfl
  simp only [hlines, List.cons.injEq, String.append_right_inj] at heq
  obtain ⟨hname, hdescription, hrest⟩ := heq
  obtain ⟨hfunctions, hend⟩ := @tells_methodLines ⟨_, m.2⟩ ⟨_, n.2⟩ _ _ rfl rfl hrest
  have hfunctions' : m.1.functions.map FunctionDoc.printed = n.1.functions.map FunctionDoc.printed := hfunctions
  have hprinted : m.1.printed = n.1.printed := by
    rw [ModuleDoc.printed, ModuleDoc.printed, hname, hdescription, hfunctions']
  exact ⟨hprinted, (List.cons.inj hend).2⟩

theorem tells_lines : Tells (fun ms : {ms : List ModuleDoc // ∀ m ∈ ms, ∀ f ∈ m.functions, f.Legible} => lines ms.1)
    (fun ms => ms.1.map ModuleDoc.printed) (· = []) := by
  have hnot : ∀ (m : ModuleDoc) (xs : List String), moduleLines m ++ xs ≠ [] := by
    intro m xs
    simp [moduleLines]
  have hmodules : Tells (fun ms : List {m : ModuleDoc // ∀ f ∈ m.functions, f.Legible} =>
        ms.flatMap fun m => moduleLines m.1) (fun ms => ms.map fun m => m.1.printed) (· = []) :=
    .flatMap (fun _ _ => trivial) (fun _ _ _ => trivial) tells_moduleLines fun m xs _ => hnot m.1 xs
  have hwrite : ∀ ms : List {m : ModuleDoc // ∀ f ∈ m.functions, f.Legible},
      (ms.flatMap fun m => moduleLines m.1) = lines ms.unattach := fun _ => List.flatMap_subtype fun _ _ => rfl
  have hkey : ∀ ms : List {m : ModuleDoc // ∀ f ∈ m.functions, f.Legible},
      (ms.map fun m => m.1.printed) = ms.unattach.map ModuleDoc.printed := fun _ => List.map_subtype fun _ _ => rfl
  simp only [hwrite, hkey] at hmodules
  exact .unattach lines _ hmodules

/-- The lines of modules are lines if their strings are. -/
theorem oneLine_lines {ms : List ModuleDoc} (h : ∀ m ∈ ms, ∀ s ∈ m.strings, OneLine s) : ∀ l ∈ lines ms, OneLine l := by
  rw [lines, List.forall_mem_flatMap]
  intro m hm
  have hname : OneLine m.name := h m hm m.name (by simp [ModuleDoc.strings])
  have hdescription : OneLine m.description := h m hm m.description (by simp [ModuleDoc.strings])
  have hmethods : ∀ l ∈ m.functions.map methodLine, OneLine l := by
    rw [List.forall_mem_map]
    intro f hf
    have hsignature : OneLine f.signature := f.oneLine_signature (m.oneLine_of_function (h m hm) hf)
    exact (OneLine.append (by decide) hsignature).append (by decide)
  simp only [moduleLines, List.forall_mem_append, List.forall_mem_cons]
  exact ⟨⟨⟨.append (by decide) hname, .append (by decide) hdescription, by simp⟩, hmethods⟩, by decide, by simp⟩

/-! ### Nothing else is printed -/

/-- Where a key determines a value, lists with the same keys have the same values. -/
theorem map_eq_map_of_key {α β γ : Type} {f : α → β} {key : α → γ} (h : ∀ a b, key a = key b → f a = f b)
    {as bs : List α} (hkeys : as.map key = bs.map key) : as.map f = bs.map f := by
  rw [← List.forall₂_eq_eq_eq, List.forall₂_map_left_iff, List.forall₂_map_right_iff] at hkeys ⊢
  exact hkeys.imp h

theorem signature_eq_of_printed (f g : FunctionDoc) (h : f.printed = g.printed) : f.signature = g.signature := by
  have hsignature : ∀ p q : ParameterDoc, p.printed = q.printed → p.signature = q.signature := by
    intro p q hpq
    obtain ⟨hname, htype⟩ : p.name = q.name ∧ p.type = q.type := Prod.mk.inj hpq
    rw [ParameterDoc.signature, ParameterDoc.signature, ParameterDoc.shownType, ParameterDoc.shownType, hname, htype]
  simp only [FunctionDoc.printed, Prod.mk.injEq] at h
  obtain ⟨hname, hparameters, hreturns⟩ := h
  rw [FunctionDoc.signature, FunctionDoc.signature, hname, hreturns, map_eq_map_of_key hsignature hparameters]

theorem moduleLines_eq_of_printed (m n : ModuleDoc) (h : m.printed = n.printed) : moduleLines m = moduleLines n := by
  have hmethod : ∀ f g : FunctionDoc, f.printed = g.printed → methodLine f = methodLine g := fun f g hfg =>
    methodLine_inj.mpr (signature_eq_of_printed f g hfg)
  simp only [ModuleDoc.printed, Prod.mk.injEq] at h
  obtain ⟨hname, hdescription, hfunctions⟩ := h
  have hmethods : m.functions.map methodLine = n.functions.map methodLine := map_eq_map_of_key hmethod hfunctions
  calc moduleLines m = ["Module: " ++ m.name, "Description: " ++ m.description] ++ m.functions.map methodLine ++ [""] := rfl
    _ = ["Module: " ++ n.name, "Description: " ++ n.description] ++ n.functions.map methodLine ++ [""] := by
        rw [hname, hdescription, hmethods]
    _ = moduleLines n := rfl

/-- The console texts of modules whose strings are lines and whose functions are legible are the
same if and only if the modules have, in order, the same names and descriptions and functions with
the same names, the same names and types of parameters, or none, and the same types of results, or
none. -/
theorem text_eq_text_iff {ms ns : List ModuleDoc} (hm : ∀ m ∈ ms, ∀ s ∈ m.strings, OneLine s)
    (hn : ∀ n ∈ ns, ∀ s ∈ n.strings, OneLine s) (hm' : ∀ m ∈ ms, ∀ f ∈ m.functions, f.Legible)
    (hn' : ∀ n ∈ ns, ∀ f ∈ n.functions, f.Legible) :
    text ms = text ns ↔ ms.map ModuleDoc.printed = ns.map ModuleDoc.printed := by
  rw [text, text, unlines_inj (oneLine_lines hm) (oneLine_lines hn)]
  constructor
  · intro hlines
    have hends : lines ms ++ [] = lines ns ++ [] := by rw [hlines]
    exact (@tells_lines ⟨ms, hm'⟩ ⟨ns, hn'⟩ [] [] rfl rfl hends).1
  · intro hprinted
    have hmodules : ms.map moduleLines = ns.map moduleLines := map_eq_map_of_key moduleLines_eq_of_printed hprinted
    rw [lines, lines, List.flatMap_def, List.flatMap_def, hmodules]

/-- Two modules; the first has a nameless function with a nameless parameter, and a result whose
type is empty. -/
def sparse : List ModuleDoc := [⟨"", "", [⟨"", "", [⟨"", none, ""⟩], true, some ""⟩]⟩, ⟨"m", " ", []⟩]

/-- The same modules, but the function has no parameters and no result. -/
def sparser : List ModuleDoc := [⟨"", "", [⟨"", "", [], true, none⟩]⟩, ⟨"m", " ", []⟩]

theorem text_eq_text_iff_sparse :
    (∀ m ∈ sparse, ∀ s ∈ m.strings, OneLine s) ∧ (∀ n ∈ sparser, ∀ s ∈ n.strings, OneLine s) ∧
      (∀ m ∈ sparse, ∀ f ∈ m.functions, f.Legible) ∧ (∀ n ∈ sparser, ∀ f ∈ n.functions, f.Legible) ∧
      text sparse ≠ text sparser := by
  have hm : ∀ m ∈ sparse, ∀ s ∈ m.strings, OneLine s := by decide
  have hn : ∀ n ∈ sparser, ∀ s ∈ n.strings, OneLine s := by decide
  have hm' : ∀ m ∈ sparse, ∀ f ∈ m.functions, f.Legible := by decide
  have hn' : ∀ n ∈ sparser, ∀ f ∈ n.functions, f.Legible := by decide
  have hprinted : sparse.map ModuleDoc.printed ≠ sparser.map ModuleDoc.printed := by
    simp [sparse, sparser, ModuleDoc.printed, FunctionDoc.printed]
  exact ⟨hm, hn, hm', hn', fun heq => hprinted ((text_eq_text_iff hm hn hm' hn').mp heq)⟩

end Console
end ApiReference
