/-
# A JSON document holds all of the documentation

The readers below look up the members of each object by key, so they do not depend on the
order in which a document has them. Each gives back what was written: a type, a parameter, a
function and a module one after the other (`module?_ordered`), and from them the project
(`project?_ordered`). So the document of a project is JSON and a line feed, and reading it
gives back the project (`text_lossless`).

Key definitions: `Record.project?`, `Record.ofText?`.
Key theorems: `function?_ordered`, `module?_ordered`, `project?_ordered`, `text_lossless`.
-/
import ApiReference.Output.Record
import ApiReference.Proofs.Json.Indented
import ApiReference.Proofs.Json.Ordered

namespace ApiReference
namespace Record

open Json (Value Term)

/-! ### Reading -/

section Reading
variable {α : Type}

/-- A string. -/
def string? : Value → Option String
  | .string s => some s
  | _ => none

/-- True or false. -/
def bool? : Value → Option Bool
  | .bool b => some b
  | _ => none

/-- A list of what `read` reads. -/
def list? (read : Value → Option α) : Value → Option (List α)
  | .list vs => vs.mapM read
  | _ => none

/-- The member with a key, read by `read`. -/
def field? (key : String) (read : Value → Option α) (v : Value) : Option α := (v.member? key).bind read

/-- A type, null if there is none. -/
def type? : Value → Option (Option String)
  | .null => some none
  | v => (string? v).map some

/-- A parameter. -/
def parameter? (v : Value) : Option ParameterDoc := do
  let name ← field? "name" string? v
  let type ← field? "type" type? v
  let description ← field? "description" string? v
  pure ⟨name, type, description⟩

/-- A function. -/
def function? (v : Value) : Option FunctionDoc := do
  let name ← field? "name" string? v
  let description ← field? "description" string? v
  let parameters ← field? "parameters" (list? parameter?) v
  let isNative ← field? "isNative" bool? v
  let returns ← field? "returns" type? v
  pure ⟨name, description, parameters, isNative, returns⟩

/-- A module. -/
def module? (v : Value) : Option ModuleDoc := do
  let name ← field? "name" string? v
  let description ← field? "description" string? v
  let functions ← field? "functions" (list? function?) v
  pure ⟨name, description, functions⟩

/-- A project. -/
def project? (v : Value) : Option (String × List ModuleDoc) := do
  let name ← field? "name" string? v
  let modules ← field? "modules" (list? module?) v
  pure (name, modules)

/-- The project of a JSON document. -/
def ofText? (text : String) : Option (String × List ModuleDoc) := (Value.ofText? text).bind project?

/-! ### Reading what is written -/

theorem field?_ordered {v w : Value} (h : v.Distinct) {key : String} (hk : v.member? key = some w)
    {read : Value → Option α} {x : α} (hr : read w.ordered = some x) : field? key read v.ordered = some x := by
  rw [field?, Value.member?_ordered h, hk, Option.map_some, Option.bind_some, hr]

theorem list?_ordered {read : Value → Option α} {write : α → Value}
    (h : ∀ x, read (write x).ordered = some x) (xs : List α) :
    list? read (.ordered (.list (xs.map write))) = some xs := by
  rw [Value.ordered, list?, Value.orderedItems_eq]
  induction xs with
  | nil => rfl
  | cons x xs ih =>
    rw [List.map_cons, List.map_cons, List.mapM_cons, h, ih]
    rfl

end Reading

theorem string?_ordered (s : String) : string? (.ordered (.string s)) = some s := rfl

theorem bool?_ordered (b : Bool) : bool? (.ordered (.bool b)) = some b := rfl

theorem type?_ordered (type : Option String) : type? (ofType type).ordered = some type := by
  cases type <;> rfl

theorem parameter?_ordered (p : ParameterDoc) : parameter? (ofParameter p).ordered = some p := by
  have h : (ofParameter p).Distinct :=
    ⟨_, rfl, show ["name", "type", "description"].Nodup by decide⟩
  have hname : field? "name" string? (ofParameter p).ordered = some p.name :=
    field?_ordered h rfl (string?_ordered _)
  have htype : field? "type" type? (ofParameter p).ordered = some p.type :=
    field?_ordered h rfl (type?_ordered _)
  have hdescription : field? "description" string? (ofParameter p).ordered = some p.description :=
    field?_ordered h rfl (string?_ordered _)
  rw [parameter?, hname, htype, hdescription]
  rfl

theorem function?_ordered (f : FunctionDoc) : function? (ofFunction f).ordered = some f := by
  have h : (ofFunction f).Distinct :=
    ⟨_, rfl, show ["name", "description", "parameters", "isNative", "returns"].Nodup by decide⟩
  have hname : field? "name" string? (ofFunction f).ordered = some f.name :=
    field?_ordered h rfl (string?_ordered _)
  have hdescription : field? "description" string? (ofFunction f).ordered = some f.description :=
    field?_ordered h rfl (string?_ordered _)
  have hparameters : field? "parameters" (list? parameter?) (ofFunction f).ordered = some f.parameters :=
    field?_ordered h rfl (list?_ordered parameter?_ordered _)
  have hnative : field? "isNative" bool? (ofFunction f).ordered = some f.isNative :=
    field?_ordered h rfl (bool?_ordered _)
  have hreturns : field? "returns" type? (ofFunction f).ordered = some f.returns :=
    field?_ordered h rfl (type?_ordered _)
  rw [function?, hname, hdescription, hparameters, hnative, hreturns]
  rfl

theorem module?_ordered (m : ModuleDoc) : module? (ofModule m).ordered = some m := by
  have h : (ofModule m).Distinct := ⟨_, rfl, show ["name", "description", "functions"].Nodup by decide⟩
  have hname : field? "name" string? (ofModule m).ordered = some m.name :=
    field?_ordered h rfl (string?_ordered _)
  have hdescription : field? "description" string? (ofModule m).ordered = some m.description :=
    field?_ordered h rfl (string?_ordered _)
  have hfunctions : field? "functions" (list? function?) (ofModule m).ordered = some m.functions :=
    field?_ordered h rfl (list?_ordered function?_ordered _)
  rw [module?, hname, hdescription, hfunctions]
  rfl

theorem project?_ordered (project : String) (modules : List ModuleDoc) :
    project? (ofProject project modules).ordered = some (project, modules) := by
  have h : (ofProject project modules).Distinct := ⟨_, rfl, show ["name", "modules"].Nodup by decide⟩
  have hname : field? "name" string? (ofProject project modules).ordered = some project :=
    field?_ordered h rfl (string?_ordered _)
  have hmodules : field? "modules" (list? module?) (ofProject project modules).ordered = some modules :=
    field?_ordered h rfl (list?_ordered module?_ordered _)
  rw [project?, hname, hmodules]
  rfl

/-! ### The document -/

section Integral

open Json.Value (Integral)

theorem integral_ofType (type : Option String) : Integral (ofType type) := by
  cases type with
  | none => exact .null
  | some type => exact .string

theorem integral_list {α : Type} {write : α → Value} (h : ∀ x, Integral (write x)) (xs : List α) :
    Integral (.list (xs.map write)) :=
  .list (List.forall_mem_map.mpr fun x _ => h x)

theorem integral_ofParameter (p : ParameterDoc) : Integral (ofParameter p) := by
  refine .object ?_
  simp only [List.forall_mem_cons]
  exact ⟨.string, integral_ofType _, .string, List.forall_mem_nil _⟩

theorem integral_ofFunction (f : FunctionDoc) : Integral (ofFunction f) := by
  refine .object ?_
  simp only [List.forall_mem_cons]
  exact ⟨.string, .string, integral_list integral_ofParameter _, .bool, integral_ofType _, List.forall_mem_nil _⟩

theorem integral_ofModule (m : ModuleDoc) : Integral (ofModule m) := by
  refine .object ?_
  simp only [List.forall_mem_cons]
  exact ⟨.string, .string, integral_list integral_ofFunction _, List.forall_mem_nil _⟩

theorem integral_ofProject (project : String) (modules : List ModuleDoc) :
    Integral (ofProject project modules) := by
  refine .object ?_
  simp only [List.forall_mem_cons]
  exact ⟨.string, integral_list integral_ofModule _, List.forall_mem_nil _⟩

end Integral

theorem hasText_text {project : String} {modules : List ModuleDoc} {t : Term}
    (h : (ofProject project modules).term? = some t) : t.HasText (text project modules) := by
  have hline : Json.Blank "\n".toList := fun c hc => .inr (.inr (.inl (List.mem_singleton.mp hc)))
  refine ⟨[], _, _, Json.blank_nil, Json.spells_pretty h, hline, ?_⟩
  rw [text, String.toList_append, List.nil_append]

/-- Reading a document gives back what it has been written for. -/
theorem ofText?_text (project : String) (modules : List ModuleDoc) :
    ofText? (text project modules) = some (project, modules) := by
  obtain ⟨t, ht, hread⟩ := Value.exists_term (integral_ofProject project modules)
  rw [ofText?, Value.ofText?_of_hasText (hasText_text ht), hread, Option.bind_some, project?_ordered]

/-- The document of a project is a JSON text, with its members in the order of `ofProject`,
and a single line feed. Reading it gives back the name of the project and all that its
modules are, so two projects never have one document. -/
theorem text_lossless (project : String) (modules : List ModuleDoc) :
    (∃ body t, text project modules = body ++ "\n" ∧ (ofProject project modules).term? = some t ∧
      t.Spells body.toList) ∧
    ofText? (text project modules) = some (project, modules) ∧
    ∀ project' modules', text project modules = text project' modules' → project = project' ∧ modules = modules' := by
  obtain ⟨t, ht, -⟩ := Value.exists_term (integral_ofProject project modules)
  refine ⟨⟨_, t, rfl, ht, Json.spells_pretty ht⟩, ofText?_text project modules, ?_⟩
  intro project' modules' hsame
  have hread : some (project, modules) = some (project', modules') := by
    rw [← ofText?_text, hsame, ofText?_text]
  exact Prod.mk.inj (Option.some.inj hread)

end Record
end ApiReference
