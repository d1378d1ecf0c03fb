/-
# What does not depend on the contents of files

Where paths lead, what a pattern matches and what is a file is the same whatever the files
contain: it is a matter of the outline, in which every file is empty. So file systems with the
same outline agree on it, one step of a path or one part of a pattern after the other.

Key definitions: `FileSystem.outline`.
Key theorems: `FileSystem.find_outline`, `Glob.follow_outline`, `Glob.files_outline`.
-/
import ApiReference.Glob.Matches

namespace ApiReference
namespace FileSystem

/-- The entry with nothing in it. -/
def Entry.emptied : Entry → Entry
  | .directory => .directory
  | .file _ => .file .empty

/-- The file system with nothing in its files. -/
def outline (fs : FileSystem) : FileSystem :=
  { fs with entries := fs.entries.map fun x => (x.1, x.2.emptied) }

theorem lookup_emptied (entries : List (Place × Entry)) (place : Place) :
    (entries.map fun x => (x.1, x.2.emptied)).lookup place = (entries.lookup place).map Entry.emptied := by
  induction entries with
  | nil => rfl
  | cons x entries ih =>
    rw [List.map_cons, List.lookup_cons, List.lookup_cons, ih]
    cases place == x.1 <;> rfl

theorem entry?_outline (fs : FileSystem) (place : Place) :
    fs.outline.entry? place = (fs.entry? place).map Entry.emptied := by
  unfold entry?
  by_cases hplace : place = []
  · rw [if_pos hplace, if_pos hplace]
    rfl
  · rw [if_neg hplace, if_neg hplace]
    exact lookup_emptied fs.entries place

theorem hasDirectory_outline (fs : FileSystem) (place : Place) :
    fs.outline.hasDirectory place = fs.hasDirectory place := by
  unfold hasDirectory
  rw [entry?_outline]
  cases fs.entry? place with
  | none => rfl
  | some entry => cases entry <;> rfl

/-! ### Following a path -/

theorem step_outline (fs : FileSystem) (place : Place) (part : String) :
    fs.outline.step place part = fs.step place part := by
  rw [step, step, hasDirectory_outline, entry?_outline, Option.isSome_map]

theorem follow_outline (fs : FileSystem) (place : Place) (parts : List String) :
    fs.outline.follow place parts = fs.follow place parts := by
  induction parts generalizing place with
  | nil => rfl
  | cons part parts ih =>
    rw [follow, follow, step_outline]
    cases fs.step place part with
    | error e => rfl
    | ok next => exact ih next

theorem locate_outline (fs : FileSystem) (p : Path) : fs.outline.locate p = fs.locate p := by
  have hstart : fs.outline.start p = fs.start p := rfl
  rw [locate, locate, hstart]
  cases fs.start p with
  | error e => rfl
  | ok place => exact follow_outline fs place p.parts

/-- A path leads to the same kind of thing. -/
theorem find_outline (fs : FileSystem) (p : Path) : fs.outline.find p = (fs.find p).map Entry.emptied := by
  rw [find, find, locate_outline]
  cases fs.locate p with
  | error e => rfl
  | ok place =>
    simp only [bind, Except.bind, entry?_outline]
    cases fs.entry? place <;> rfl

theorem reaches_outline (fs : FileSystem) (p : Path) : fs.outline.reaches p = fs.reaches p := by
  rw [reaches, reaches, find_outline]
  cases fs.find p <;> rfl

theorem isFile_outline (fs : FileSystem) (p : Path) : fs.outline.isFile p = fs.isFile p := by
  unfold isFile
  rw [find_outline]
  cases fs.find p with
  | error e => rfl
  | ok entry => cases entry <;> rfl

theorem isDirectory_outline (fs : FileSystem) (p : Path) : fs.outline.isDirectory p = fs.isDirectory p := by
  unfold isDirectory
  rw [find_outline]
  cases fs.find p with
  | error e => rfl
  | ok entry => cases entry <;> rfl

theorem below_outline (fs : FileSystem) (place : Place) : fs.outline.below place = fs.below place :=
  List.filterMap_map

theorem namesIn_outline (fs : FileSystem) (place : Place) : fs.outline.namesIn place = fs.namesIn place := by
  rw [namesIn, namesIn, below_outline]

end FileSystem

/-! ### Following a pattern -/

namespace Glob

theorem below_outline (fs : FileSystem) (p : Path) : below fs.outline p = below fs p := by
  unfold below
  rw [FileSystem.locate_outline]
  cases fs.locate p with
  | error e => rfl
  | ok place =>
    dsimp only
    rw [FileSystem.below_outline]

theorem children_outline (fs : FileSystem) (p : Path) : children fs.outline p = children fs p := by
  unfold children
  rw [FileSystem.locate_outline]
  cases fs.locate p with
  | error e => rfl
  | ok place =>
    dsimp only
    rw [FileSystem.namesIn_outline]

mutual

theorem follow_outline (fs : FileSystem) (parts : List Part) (p : Path) :
    follow fs.outline parts p = follow fs parts p := by
  match parts with
  | [] => rfl
  | .name name :: rest =>
    rw [follow, follow, FileSystem.isDirectory_outline, FileSystem.reaches_outline, follow_outline fs rest]
  | .wild tokens :: rest =>
    rw [follow, follow, FileSystem.isDirectory_outline, children_outline]
    simp only [follow_outline fs rest]
  | .anyDirectories :: rest =>
    have hrest : followHere fs.outline rest = followHere fs rest := funext (followHere_outline fs rest)
    rw [follow, follow, FileSystem.isDirectory_outline, below_outline, hrest]

theorem followHere_outline (fs : FileSystem) (parts : List Part) (p : Path) :
    followHere fs.outline parts p = followHere fs parts p := by
  match parts with
  | [] => rw [followHere, followHere, FileSystem.isDirectory_outline]
  | .anyDirectories :: rest => rw [followHere, followHere, followHere_outline fs rest]
  | .name name :: rest => rw [followHere, followHere, follow_outline fs rest]
  | .wild tokens :: rest => rw [followHere, followHere, follow_outline fs rest]

end

/-- A pattern matches the same files. -/
theorem files_outline (fs : FileSystem) (pattern : String) : files fs.outline pattern = files fs pattern := by
  have hdirectory : fs.outline.isDirectory = fs.isDirectory := funext (FileSystem.isDirectory_outline fs)
  have hfile : fs.outline.isFile = fs.isFile := funext (FileSystem.isFile_outline fs)
  unfold files matching
  rw [hdirectory, hfile]
  simp only [follow_outline]

end Glob
end ApiReference
