/-
# What a change leaves as it was

A directory is made only where nothing is, so making a directory with its parents grows the
file system (`grows_makeDirectories`), also if it fails half-way: every file is as before.
A file is written where no directory is, so each path that could be followed before leads to
the same place (`follow_of_extends`), and the path that has been written to leads to the file
(`exists_set_of_write`); reading gives the text back (`read_of_find`).

Key definitions: `FileSystem.file?`, `FileSystem.Grows`, `FileSystem.Extends`.
Key theorems: `makeDirectory_eq_ok_iff`, `grows_makeDirectories`, `follow_of_extends`,
`target_eq_ok_iff`, `write_eq_ok_iff`, `exists_set_of_write`, `read_of_find`.
-/
import ApiReference.File.System
import ApiReference.Proofs.Except
import ApiReference.Proofs.Keyed

namespace ApiReference
namespace FileSystem

/-! ### Setting an entry -/

theorem put_eq (place : Place) (entry : Entry) (entries : List (Place × Entry)) :
    put place entry entries = Keyed.put place entry entries := by
  induction entries with
  | nil => rfl
  | cons x entries ih => rw [put, Keyed.put, ih]

theorem entryAt_set (fs : FileSystem) {place : Place} (h : place ≠ []) (entry : Entry) (other : Place) :
    entry? (fs.set place entry) other = if other = place then some entry else fs.entry? other := by
  unfold entry? set
  rw [put_eq, Keyed.lookup_put]
  by_cases ho : other = []
  · rw [if_pos ho, if_pos ho, if_neg (fun he : other = place => h (he ▸ ho))]
  · rw [if_neg ho, if_neg ho]

/-- The content of the file at a place. -/
def file? (fs : FileSystem) (place : Place) : Option ByteArray :=
  match fs.entry? place with
  | some (.file content) => some content
  | _ => none

theorem file?_congr {fs after : FileSystem} {place : Place} (h : after.entry? place = fs.entry? place) :
    after.file? place = fs.file? place := by rw [file?, file?, h]

theorem file?_set {fs : FileSystem} {place : Place} (h : place ≠ []) (content : ByteArray) (other : Place) :
    file? (fs.set place (.file content)) other = if other = place then some content else fs.file? other := by
  unfold file?
  rw [entryAt_set fs h]
  by_cases ho : other = place
  · rw [if_pos ho, if_pos ho]
  · rw [if_neg ho, if_neg ho]

theorem hasDirectory_iff (fs : FileSystem) (place : Place) :
    fs.hasDirectory place = true ↔ fs.entry? place = some .directory := by
  unfold hasDirectory
  split
  · next h => simp [h]
  · next h => simpa using h

/-! ### Making directories -/

/-- There are more directories, where nothing was before. -/
structure Grows (fs after : FileSystem) : Prop where
  working : after.working = fs.working
  entry : ∀ place, after.entry? place = fs.entry? place ∨
    fs.entry? place = none ∧ after.entry? place = some .directory

theorem Grows.refl (fs : FileSystem) : Grows fs fs := ⟨rfl, fun _ => .inl rfl⟩

theorem Grows.trans {fs middle after : FileSystem} (h : Grows fs middle) (h' : Grows middle after) :
    Grows fs after where
  working := h'.working.trans h.working
  entry place := by
    rcases h'.entry place with hsame | ⟨hnone, hnew⟩
    · rw [hsame]
      exact h.entry place
    · rcases h.entry place with hs | ⟨-, hs⟩
      · exact .inr ⟨hs ▸ hnone, hnew⟩
      · rw [hs] at hnone
        cases hnone

/-- No file has come, gone or changed. -/
theorem Grows.file? {fs after : FileSystem} (h : Grows fs after) (place : Place) :
    after.file? place = fs.file? place := by
  rcases h.entry place with hsame | ⟨hnone, hnew⟩
  · exact file?_congr hsame
  · rw [FileSystem.file?, FileSystem.file?, hnone, hnew]

/-- A directory is made under a name in a directory, where nothing is. -/
theorem makeDirectory_eq_ok_iff {fs after : FileSystem} {p : Path} : fs.makeDirectory p = .ok after ↔ ∃ directory name,
    fs.target p = .ok (directory, name) ∧ isDots name = false ∧ name.utf8ByteSize ≤ nameLimit ∧
      fs.entry? (directory ++ [name]) = none ∧ after = fs.set (directory ++ [name]) .directory := by
  unfold makeDirectory
  constructor
  · intro h
    obtain ⟨⟨directory, name⟩, htarget, h⟩ := exists_of_bind_eq_ok h
    dsimp only at h
    split at h
    · cases h
    next hdots =>
    split at h
    · cases h
    next hlimit =>
    split at h
    · cases h
    next hnone =>
    cases h
    refine ⟨directory, name, htarget, Bool.eq_false_iff.mpr hdots, Nat.le_of_not_lt hlimit, ?_, rfl⟩
    rwa [Option.not_isSome_iff_eq_none] at hnone
  · rintro ⟨directory, name, htarget, hdots, hlimit, hnone, rfl⟩
    rw [htarget]
    simp only [bind, Except.bind, hdots, hnone, Nat.not_lt.mpr hlimit]
    rfl

theorem grows_makeDirectory {fs after : FileSystem} {p : Path} (h : fs.makeDirectory p = .ok after) :
    Grows fs after := by
  obtain ⟨directory, name, -, -, -, hnone, rfl⟩ := makeDirectory_eq_ok_iff.mp h
  have hne : directory ++ [name] ≠ [] := by simp
  refine ⟨rfl, fun place => ?_⟩
  rw [entryAt_set fs hne]
  by_cases hp : place = directory ++ [name]
  · rw [if_pos hp, hp]
    exact .inr ⟨hnone, rfl⟩
  · rw [if_neg hp]
    exact .inl rfl

theorem grows_ensureDirectory {fs after : FileSystem} {p : Path} (h : fs.ensureDirectory p = .ok after) :
    Grows fs after := by
  unfold ensureDirectory at h
  split at h
  · next hm =>
    cases h
    exact grows_makeDirectory hm
  · split at h
    · cases h
      exact .refl fs
    · cases h

theorem grows_makeFirst {fs after : FileSystem} {paths missing rest : List Path}
    (h : fs.makeFirst missing paths = .ok (after, rest)) : Grows fs after := by
  induction paths generalizing missing with
  | nil =>
    cases h
    exact .refl fs
  | cons p paths ih =>
    unfold makeFirst at h
    split at h
    · next he =>
      cases h
      exact grows_ensureDirectory he
    · exact ih h
    · cases h

theorem grows_makeAll (fs : FileSystem) (paths : List Path) : Grows fs (fs.makeAll paths).after := by
  induction paths generalizing fs with
  | nil => exact .refl fs
  | cons p paths ih =>
    unfold makeAll
    split
    · next after he => exact (grows_ensureDirectory he).trans (ih after)
    · exact .refl fs

/-- Making directories leaves every file as it is, also if it fails. -/
theorem grows_makeDirectories (fs : FileSystem) (p : Path) : Grows fs (fs.makeDirectories p).after := by
  unfold makeDirectories
  split
  · next after missing h => exact (grows_makeFirst h).trans (grows_makeAll after missing)
  · exact .refl fs

/-! ### Following a path after a change -/

/-- What is there stays, and directories stay directories. -/
structure Extends (fs after : FileSystem) : Prop where
  working : after.working = fs.working
  directory : ∀ place, fs.hasDirectory place = true → after.hasDirectory place = true
  entry : ∀ place, (fs.entry? place).isSome = true → (after.entry? place).isSome = true

theorem extends_set {fs : FileSystem} {place : Place} (h : place ≠ [])
    (hd : fs.entry? place ≠ some .directory) (entry : Entry) : Extends fs (fs.set place entry) where
  working := rfl
  directory other ho := by
    have hne : other ≠ place := by
      rintro rfl
      exact hd ((hasDirectory_iff fs other).mp ho)
    rw [hasDirectory_iff] at ho ⊢
    rwa [entryAt_set fs h, if_neg hne]
  entry other ho := by
    rw [entryAt_set fs h]
    by_cases he : other = place
    · rw [if_pos he]
      rfl
    · rwa [if_neg he]

theorem step_of_extends {fs after : FileSystem} (h : Extends fs after) {place next : Place} {part : String}
    (hs : fs.step place part = .ok next) : after.step place part = .ok next := by
  unfold step at hs ⊢
  by_cases hd : fs.hasDirectory place = true
  · rw [if_neg (by simp [hd])] at hs
    rw [if_neg (by simp [h.directory place hd])]
    split at hs
    · next hsame => rwa [if_pos hsame]
    next hsame =>
    rw [if_neg hsame]
    split at hs
    · next hup => rwa [if_pos hup]
    next hup =>
    rw [if_neg hup]
    split at hs
    · cases hs
    next hlimit =>
    rw [if_neg hlimit]
    split at hs
    · next hthere => rwa [if_pos (h.entry _ hthere)]
    · cases hs
  · rw [if_pos (by simpa using hd)] at hs
    cases hs

theorem follow_of_extends {fs after : FileSystem} (h : Extends fs after) {place last : Place}
    {parts : List String} (hf : fs.follow place parts = .ok last) : after.follow place parts = .ok last := by
  induction parts generalizing place with
  | nil => exact hf
  | cons part parts ih =>
    unfold follow at hf ⊢
    obtain ⟨next, hs, hf⟩ := exists_of_bind_eq_ok hf
    rw [step_of_extends h hs]
    exact ih hf

theorem follow_append (fs : FileSystem) (place : Place) (parts rest : List String) :
    fs.follow place (parts ++ rest) = fs.follow place parts >>= fun next => fs.follow next rest := by
  induction parts generalizing place with
  | nil => rfl
  | cons part parts ih =>
    rw [List.cons_append, follow, follow]
    cases fs.step place part with
    | error e => rfl
    | ok next => exact ih next

/-! ### Writing a file -/

theorem fromUTF8?_toUTF8 (text : String) : String.fromUTF8? text.toUTF8 = some text := by
  have h : text.toByteArray.IsValidUTF8 := text.isValidUTF8
  rw [String.toUTF8_eq_toByteArray, String.fromUTF8?, dif_pos h]
  rfl

/-- A file that has been written as a text is read as the text. -/
theorem read_of_find {fs : FileSystem} {p : Path} {text : String}
    (h : fs.find p = .ok (.file text.toUTF8)) : fs.read p = .ok text := by
  unfold read
  rw [h]
  simp only [Except.bind, bind, fromUTF8?_toUTF8]

end FileSystem

/-! ### The parts of a path -/

namespace Path

theorem splitSlashes_ne_nil (cs : List Char) : splitSlashes cs ≠ [] := by
  cases cs with
  | nil => simp [splitSlashes]
  | cons c cs =>
    unfold splitSlashes
    split
    · simp
    · split <;> simp

/-- The last part is empty only if there is nothing behind a slash. -/
theorem getLast?_splitSlashes {cs : List Char} (h : (splitSlashes cs).getLast? = some []) :
    cs = [] ∨ cs.getLast? = some '/' := by
  induction cs with
  | nil => exact .inl rfl
  | cons c cs ih =>
    have hlast : cs = [] ∨ cs.getLast? = some '/' → c = '/' ∨ cs ≠ [] → (c :: cs).getLast? = some '/' := by
      rintro (rfl | hcs) hc
      · simpa using hc
      · rw [List.getLast?_cons, hcs]
        rfl
    refine .inr ?_
    obtain ⟨part, parts, hparts⟩ := List.exists_cons_of_ne_nil (splitSlashes_ne_nil cs)
    unfold splitSlashes at h
    by_cases hc : c = '/'
    · rw [if_pos hc, List.getLast?_cons_of_ne_nil (splitSlashes_ne_nil cs)] at h
      exact hlast (ih h) (.inl hc)
    · rw [if_neg hc, hparts] at h
      cases parts with
      | nil => cases h
      | cons next parts =>
        have hcs : cs ≠ [] := by
          rintro rfl
          cases hparts
        rw [hparts] at ih
        exact hlast (ih h) (.inr hcs)

end Path

namespace FileSystem

/-- Nothing is trimmed off a path that ends with a name. -/
theorem trimmedParts_eq {p : Path} (ht : p.text ≠ "") (hs : p.endsInSlash = false) :
    trimmedParts p = p.parts ∧ p.parts ≠ [] := by
  have hne : p.parts ≠ [] := by simpa [Path.parts] using Path.splitSlashes_ne_nil p.text.toList
  refine ⟨?_, hne⟩
  obtain ⟨front, last, hlast⟩ := (List.eq_nil_or_concat p.parts).resolve_left hne
  have hname : last ≠ "" := by
    rintro rfl
    have hempty : (Path.splitSlashes p.text.toList).getLast?.map String.ofList = some "" := by
      rw [← List.getLast?_map]
      show p.parts.getLast? = some ""
      rw [hlast, List.concat_eq_append, List.getLast?_concat]
    obtain ⟨cs, hcs, hof⟩ := Option.map_eq_some_iff.mp hempty
    have hnil : cs = [] := by simpa using congrArg String.toList hof
    rcases Path.getLast?_splitSlashes (hnil ▸ hcs) with htext | htext
    · exact ht (String.toList_inj.mp htext)
    · rw [Path.endsInSlash, htext] at hs
      simp at hs
  rw [trimmedParts, hlast]
  simp [hname]

/-- What a path names is behind its trimmed parts but for the last, which is the name. -/
theorem target_eq_ok_iff {fs : FileSystem} {p : Path} {directory : Place} {name : String} : fs.target p = .ok (directory, name) ↔
    ∃ place, fs.start p = .ok place ∧ fs.follow place (trimmedParts p).dropLast = .ok directory ∧
      fs.hasDirectory directory = true ∧ name = (trimmedParts p).getLast?.getD "" := by
  unfold target
  constructor
  · intro h
    obtain ⟨place, hstart, h⟩ := exists_of_bind_eq_ok h
    obtain ⟨there, hfollow, h⟩ := exists_of_bind_eq_ok h
    split at h
    · next hdirectory =>
      cases h
      exact ⟨place, hstart, hfollow, hdirectory, rfl⟩
    · cases h
  · rintro ⟨place, hstart, hfollow, hdirectory, rfl⟩
    rw [hstart]
    show (fs.follow place _ >>= _) = _
    rw [hfollow]
    exact if_pos hdirectory

/-- The last part of a path that ends with a name is a name in what the others lead to. -/
theorem target_eq_ok {fs : FileSystem} {p : Path} {directory : Place} {name : String}
    (h : fs.target p = .ok (directory, name)) (hs : p.endsInSlash = false) :
    ∃ place front, fs.start p = .ok place ∧ p.parts = front ++ [name] ∧
      fs.follow place front = .ok directory ∧ fs.hasDirectory directory = true := by
  obtain ⟨place, hstart, hfollow, hd, hname⟩ := target_eq_ok_iff.mp h
  have htext : p.text ≠ "" := by
    intro ht
    unfold start at hstart
    rw [ht, if_neg (by decide), if_neg (by decide), if_pos rfl] at hstart
    cases hstart
  obtain ⟨htrim, hne⟩ := trimmedParts_eq htext hs
  rw [htrim] at hfollow hname
  refine ⟨place, p.parts.dropLast, hstart, ?_, hfollow, hd⟩
  rw [hname, List.getLast?_eq_some_getLast hne, Option.getD_some, List.dropLast_append_getLast]

/-- A name leads to what is there under it. -/
theorem step_eq_ok {fs : FileSystem} {place : Place} {name : String} (hd : fs.hasDirectory place = true)
    (hdots : isDots name = false) (hlimit : name.utf8ByteSize ≤ nameLimit)
    (hthere : (fs.entry? (place ++ [name])).isSome = true) : fs.step place name = .ok (place ++ [name]) := by
  obtain ⟨⟨hempty, hdot⟩, hup⟩ : (name ≠ "" ∧ name ≠ ".") ∧ name ≠ ".." := by simpa [isDots] using hdots
  unfold step
  rw [if_neg (by simp [hd]), if_neg (by simp [hempty, hdot]), if_neg hup, if_neg (Nat.not_lt.mpr hlimit),
    if_pos hthere]

/-- A file is written under a name in a directory, where no directory is. -/
theorem write_eq_ok_iff {fs after : FileSystem} {p : Path} {text : String} : fs.write p text = .ok after ↔ ∃ directory name,
    fs.target p = .ok (directory, name) ∧ p.endsInSlash = false ∧ isDots name = false ∧
      name.utf8ByteSize ≤ nameLimit ∧ fs.entry? (directory ++ [name]) ≠ some .directory ∧
      after = fs.set (directory ++ [name]) (.file text.toUTF8) := by
  unfold write
  constructor
  · intro h
    obtain ⟨⟨directory, name⟩, htarget, h⟩ := exists_of_bind_eq_ok h
    dsimp only at h
    split at h
    · cases h
    next hshape =>
    split at h
    · cases h
    next hlimit =>
    obtain ⟨hslash, hdots⟩ : p.endsInSlash = false ∧ isDots name = false := by simpa using hshape
    split at h
    · cases h
    · next hfree =>
      cases h
      exact ⟨directory, name, htarget, hslash, hdots, Nat.le_of_not_lt hlimit, hfree, rfl⟩
  · rintro ⟨directory, name, htarget, hslash, hdots, hlimit, hfree, rfl⟩
    rw [htarget]
    simp only [bind, Except.bind, hslash, hdots, Bool.or_self, Bool.false_eq_true, if_false,
      if_neg (Nat.not_lt.mpr hlimit)]

/-- Writing changes one place, where no directory is; it is the place the path then leads to. -/
theorem exists_set_of_write {fs after : FileSystem} {p : Path} {text : String}
    (h : fs.write p text = .ok after) : ∃ place, place ≠ [] ∧ fs.entry? place ≠ some .directory ∧
      after = fs.set place (.file text.toUTF8) ∧ after.locate p = .ok place := by
  obtain ⟨directory, name, ht, hslash, hdots, hlimit, hfree, hset⟩ := write_eq_ok_iff.mp h
  have hne : directory ++ [name] ≠ [] := by simp
  obtain ⟨place, front, hstart, hparts, hfront, hdirectory⟩ := target_eq_ok ht hslash
  have hext := extends_set hne hfree (.file text.toUTF8)
  rw [← hset] at hext
  have hthere : (after.entry? (directory ++ [name])).isSome = true := by
    rw [hset, entryAt_set fs hne, if_pos rfl]
    rfl
  -- the parts before the last lead where they led before; only the last leads to what is new
  have hlast : after.step directory name = .ok (directory ++ [name]) :=
    step_eq_ok (hext.directory _ hdirectory) hdots hlimit hthere
  refine ⟨directory ++ [name], hne, hfree, hset, ?_⟩
  unfold locate
  have hstart' : after.start p = .ok place := by
    unfold start at hstart ⊢
    rwa [hext.working]
  rw [hstart', hparts]
  show after.follow place (front ++ [name]) = _
  rw [follow_append, follow_of_extends hext hfront]
  show after.follow directory [name] = _
  unfold follow
  rw [hlast]
  rfl

end FileSystem
end ApiReference
