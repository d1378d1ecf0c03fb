/-
# Changes that are made a second time

Making a directory with its parents leaves a directory there, unless the path has no component
but the root (`isDirectory_of_makeDirectories`); where a directory is, making it changes nothing
(`makeDirectories_of_isDirectory`). Writing a text where it has just been written changes nothing
either (`write_of_write`). What is added in between does not matter, as directories stay
directories (`isDirectory_of_extends`).

Key theorems: `Grows.extends`, `isDirectory_of_extends`, `exists_target_of_locate`,
`isDirectory_of_makeDirectories`, `makeDirectories_of_isDirectory`, `write_of_write`.
-/
import ApiReference.Proofs.File.Spelling

namespace ApiReference
namespace FileSystem

variable {fs after later : FileSystem} {p : Path}

/-! ### What extends a file system -/

theorem Extends.trans (h : Extends fs after) (h' : Extends after later) : Extends fs later where
  working := h'.working.trans h.working
  directory place hd := h'.directory place (h.directory place hd)
  entry place he := h'.entry place (h.entry place he)

theorem Grows.extends (h : Grows fs after) : Extends fs after where
  working := h.working
  directory place hd := by
    rw [hasDirectory_iff] at hd ⊢
    rcases h.entry place with hsame | ⟨hnone, -⟩
    · exact hsame.trans hd
    · rw [hd] at hnone
      cases hnone
  entry place he := by
    rcases h.entry place with hsame | ⟨-, hnew⟩
    · rwa [hsame]
    · rw [hnew]
      rfl

theorem start_of_extends (h : Extends fs after) (p : Path) : after.start p = fs.start p := by
  unfold start
  rw [h.working]

theorem locate_of_extends (h : Extends fs after) {place : Place} (hp : fs.locate p = .ok place) :
    after.locate p = .ok place := by
  unfold locate at hp ⊢
  obtain ⟨first, hstart, hfollow⟩ := exists_of_bind_eq_ok hp
  rw [start_of_extends h, hstart]
  exact follow_of_extends h hfollow

theorem isDirectory_iff :
    fs.isDirectory p = true ↔ ∃ place, fs.locate p = .ok place ∧ fs.hasDirectory place = true := by
  unfold isDirectory find
  cases fs.locate p with
  | error e =>
    refine iff_of_false Bool.false_ne_true ?_
    rintro ⟨place, hlocate, -⟩
    cases hlocate
  | ok place =>
    simp only [bind, Except.bind, Except.ok.injEq, exists_eq_left', hasDirectory]
    cases fs.entry? place with
    | none => exact Iff.rfl
    | some entry => cases entry <;> exact Iff.rfl

theorem isDirectory_of_extends (h : Extends fs after) (hp : fs.isDirectory p = true) :
    after.isDirectory p = true := by
  obtain ⟨place, hlocate, hdirectory⟩ := isDirectory_iff.mp hp
  exact isDirectory_iff.mpr ⟨place, locate_of_extends h hlocate, h.directory place hdirectory⟩

/-! ### What a path names -/

theorem target_of_extends (h : Extends fs after) {directory : Place} {name : String}
    (hp : fs.target p = .ok (directory, name)) : after.target p = .ok (directory, name) := by
  obtain ⟨place, hstart, hfollow, hdirectory, hname⟩ := target_eq_ok_iff.mp hp
  refine target_eq_ok_iff.mpr ⟨place, ?_, follow_of_extends h hfollow, h.directory directory hdirectory, hname⟩
  rw [start_of_extends h, hstart]

theorem hasDirectory_of_step {place next : Place} {part : String} (h : fs.step place part = .ok next) :
    fs.hasDirectory place = true := by
  by_contra hno
  rw [step_of_not_hasDirectory fs (Bool.eq_false_iff.mpr hno)] at h
  cases h

/-- A step by a name leads to what is there under it. -/
theorem exists_entry_of_step {place next : Place} {name : String} (hdots : isDots name = false)
    (h : fs.step place name = .ok next) :
    name.utf8ByteSize ≤ nameLimit ∧ (fs.entry? (place ++ [name])).isSome = true := by
  obtain ⟨⟨hempty, hdot⟩, hup⟩ : (name ≠ "" ∧ name ≠ ".") ∧ name ≠ ".." := by simpa [isDots] using hdots
  unfold step at h
  rw [if_neg (by simp [hasDirectory_of_step h]), if_neg (by simp [hempty, hdot]), if_neg hup] at h
  split at h
  · cases h
  next hlimit =>
  split at h
  · next hthere => exact ⟨Nat.le_of_not_lt hlimit, hthere⟩
  · cases h

/-- Behind the trimmed parts of a path there are empty ones only. -/
theorem exists_blanks (p : Path) : ∃ blanks, p.parts = trimmedParts p ++ blanks ∧ ∀ part ∈ blanks, part = "" := by
  refine ⟨(p.parts.reverse.takeWhile (· = "")).reverse, ?_, fun part hpart => ?_⟩
  · rw [trimmedParts, ← List.reverse_append, List.takeWhile_append_dropWhile, List.reverse_reverse]
  · simpa using List.all_eq_true.mp List.all_takeWhile part (List.mem_reverse.mp hpart)

/-- Empty parts lead nowhere. -/
theorem follow_blanks {blanks : List String} (h : ∀ part ∈ blanks, part = "") {place : Place}
    (hdirectory : fs.hasDirectory place = true) : fs.follow place blanks = .ok place := by
  induction blanks with
  | nil => rfl
  | cons part blanks ih =>
    obtain ⟨rfl, hblanks⟩ := List.forall_mem_cons.mp h
    have hstay : fs.step place "" = .ok place := by
      rw [step_of_not_leads fs place (by decide), if_pos hdirectory]
    rw [follow, hstay]
    exact ih hblanks

/-- A path that leads somewhere names something in a directory. -/
theorem exists_target_of_locate {last : Place} (h : fs.locate p = .ok last) :
    ∃ directory name next, fs.target p = .ok (directory, name) ∧ fs.step directory name = .ok next := by
  obtain ⟨place, hstart, hfollow⟩ := exists_of_bind_eq_ok h
  obtain ⟨blanks, hparts, hblanks⟩ := exists_blanks p
  rcases List.eq_nil_or_concat (trimmedParts p) with hnil | ⟨front, name, hname⟩
  · -- all parts are empty, and there is a first one
    obtain ⟨first, rest, hcons⟩ : ∃ first rest, p.parts = first :: rest := by
      refine List.exists_cons_of_ne_nil fun hempty => ?_
      exact Path.splitSlashes_ne_nil p.text.toList (List.map_eq_nil_iff.mp hempty)
    rw [hcons] at hfollow
    obtain ⟨next, hstep, -⟩ := exists_of_bind_eq_ok hfollow
    have hfirst : first = "" := hblanks first (by rw [hnil, List.nil_append] at hparts; simp [← hparts, hcons])
    have hdirectory := hasDirectory_of_step hstep
    refine ⟨place, "", next, target_eq_ok_iff.mpr ⟨place, hstart, ?_, hdirectory, ?_⟩, hfirst ▸ hstep⟩
    · rw [hnil]
      rfl
    · rw [hnil]
      rfl
  · rw [List.concat_eq_append] at hname
    rw [hparts, hname, List.append_assoc, follow_append] at hfollow
    obtain ⟨directory, hfront, hfollow⟩ := exists_of_bind_eq_ok hfollow
    obtain ⟨next, hstep, -⟩ := exists_of_bind_eq_ok hfollow
    refine ⟨directory, name, next, target_eq_ok_iff.mpr ⟨place, hstart, ?_, hasDirectory_of_step hstep, ?_⟩, hstep⟩
    · rwa [hname, List.dropLast_concat]
    · rw [hname, List.getLast?_concat, Option.getD_some]

/-! ### Directories that are there -/

/-- Where a directory is none can be made. -/
theorem makeDirectory_of_isDirectory (h : fs.isDirectory p = true) : fs.makeDirectory p = .error .alreadyThere := by
  obtain ⟨place, hlocate, -⟩ := isDirectory_iff.mp h
  obtain ⟨directory, name, next, htarget, hstep⟩ := exists_target_of_locate hlocate
  unfold makeDirectory
  rw [htarget]
  simp only [bind, Except.bind]
  cases hdots : isDots name with
  | true => rfl
  | false =>
    obtain ⟨hlimit, hthere⟩ := exists_entry_of_step hdots hstep
    rw [if_neg Bool.false_ne_true, if_neg (Nat.not_lt.mpr hlimit), if_pos hthere]

theorem ensureDirectory_of_isDirectory (h : fs.isDirectory p = true) : fs.ensureDirectory p = .ok fs := by
  rw [ensureDirectory, makeDirectory_of_isDirectory h]
  exact if_pos ⟨rfl, h⟩

/-- A directory that has been made is there. -/
theorem isDirectory_of_makeDirectory (h : fs.makeDirectory p = .ok after) : after.isDirectory p = true := by
  have hextends := (grows_makeDirectory h).extends
  obtain ⟨directory, name, htarget, hdots, hlimit, -, hset⟩ := makeDirectory_eq_ok_iff.mp h
  obtain ⟨place, hstart, hfollow, hdirectory, hname⟩ := target_eq_ok_iff.mp htarget
  obtain ⟨blanks, hparts, hblanks⟩ := exists_blanks p
  have hnew : after.entry? (directory ++ [name]) = some .directory := by
    rw [hset, entryAt_set fs (by simp), if_pos rfl]
  have hnewDirectory := (hasDirectory_iff after _).mpr hnew
  have htrimmed : trimmedParts p = (trimmedParts p).dropLast ++ [name] := by
    rcases List.eq_nil_or_concat (trimmedParts p) with hnil | ⟨front, last, hlast⟩
    · rw [hnil] at hname
      rw [hname] at hdots
      cases hdots
    · rw [List.concat_eq_append] at hlast
      rw [hlast, List.getLast?_concat, Option.getD_some] at hname
      rw [hlast, List.dropLast_concat, hname]
  have hstep : after.step directory name = .ok (directory ++ [name]) :=
    step_eq_ok (hextends.directory directory hdirectory) hdots hlimit (by rw [hnew]; rfl)
  refine isDirectory_iff.mpr ⟨directory ++ [name], ?_, hnewDirectory⟩
  -- the parts up to the name lead where they led before it was made
  calc after.locate p
      = after.follow place p.parts := by rw [locate, start_of_extends hextends, hstart]; rfl
    _ = after.follow directory (name :: blanks) := by
        rw [hparts, htrimmed, List.append_assoc, follow_append, follow_of_extends hextends hfollow]
        rfl
    _ = after.follow (directory ++ [name]) blanks := by rw [follow, hstep]; rfl
    _ = .ok (directory ++ [name]) := follow_blanks hblanks hnewDirectory

theorem isDirectory_of_ensureDirectory (h : fs.ensureDirectory p = .ok after) : after.isDirectory p = true := by
  unfold ensureDirectory at h
  split at h
  · next made hmade =>
    cases h
    exact isDirectory_of_makeDirectory hmade
  · split at h
    · next hthere =>
      cases h
      exact hthere.2
    · cases h

/-! ### Making directories -/

theorem isDirectory_of_makeAll {paths : List Path} (h : (fs.makeAll paths).error = none) :
    ∀ p ∈ paths, (fs.makeAll paths).after.isDirectory p = true := by
  induction paths generalizing fs with
  | nil => exact List.forall_mem_nil _
  | cons q paths ih =>
    unfold makeAll at h ⊢
    cases hq : fs.ensureDirectory q with
    | error e =>
      rw [hq] at h
      cases h
    | ok after =>
      rw [hq] at h
      have hstays := (grows_makeAll after paths).extends
      exact List.forall_mem_cons.mpr ⟨isDirectory_of_extends hstays (isDirectory_of_ensureDirectory hq), ih h⟩

theorem mem_of_makeFirst {paths missing rest : List Path} (h : fs.makeFirst missing paths = .ok (after, rest)) :
    ∀ p ∈ missing, p ∈ rest := by
  induction paths generalizing missing with
  | nil =>
    cases h
    exact fun p hp => hp
  | cons q paths ih =>
    unfold makeFirst at h
    split at h
    · cases h
      exact fun p hp => hp
    · exact fun p hp => ih h p (List.mem_cons_of_mem q hp)
    · cases h

/-- The first of the paths is a directory or still to be made. -/
theorem isDirectory_of_makeFirst {paths missing rest : List Path}
    (h : fs.makeFirst missing (p :: paths) = .ok (after, rest)) : after.isDirectory p = true ∨ p ∈ rest := by
  unfold makeFirst at h
  split at h
  · next hmade =>
    cases h
    exact .inl (isDirectory_of_ensureDirectory hmade)
  · exact .inr (mem_of_makeFirst h p List.mem_cons_self)
  · cases h

theorem ancestors_cases (p : Path) : p.ancestors = [] ∨ ∃ rest, p.ancestors = p :: rest := by
  unfold Path.ancestors
  split
  · exact .inl rfl
  · exact .inr ⟨_, rfl⟩

/-- A directory that has been made with its parents is there. -/
theorem isDirectory_of_makeDirectories (h : (fs.makeDirectories p).error = none) :
    p.ancestors = [] ∨ (fs.makeDirectories p).after.isDirectory p = true := by
  refine (ancestors_cases p).imp_right ?_
  rintro ⟨rest, hancestors⟩
  unfold makeDirectories at h ⊢
  rw [hancestors] at h ⊢
  cases hfirst : fs.makeFirst [] (p :: rest) with
  | error e =>
    rw [hfirst] at h
    cases h
  | ok x =>
    obtain ⟨middle, missing⟩ := x
    rw [hfirst] at h
    dsimp only at h ⊢
    rcases isDirectory_of_makeFirst hfirst with hthere | hmissing
    · exact isDirectory_of_extends (grows_makeAll middle missing).extends hthere
    · exact isDirectory_of_makeAll h p hmissing

/-- Where a directory is, making it with its parents changes nothing. -/
theorem makeDirectories_of_isDirectory (h : p.ancestors = [] ∨ fs.isDirectory p = true) :
    fs.makeDirectories p = ⟨fs, none⟩ := by
  unfold makeDirectories
  rcases ancestors_cases p with hnil | ⟨rest, hancestors⟩
  · rw [hnil]
    rfl
  · have hthere : fs.isDirectory p = true := h.resolve_left (by rw [hancestors]; exact List.cons_ne_nil _ _)
    rw [hancestors, makeFirst, ensureDirectory_of_isDirectory hthere]
    rfl

/-! ### Writing a file -/

theorem put_put (place : Place) (entry : Entry) (entries : List (Place × Entry)) :
    put place entry (put place entry entries) = put place entry entries := by
  induction entries with
  | nil => simp [put]
  | cons x entries ih =>
    rw [put]
    split
    · next hx => rw [put, if_pos hx]
    · next hx => rw [put, if_neg hx, ih]

theorem set_set (fs : FileSystem) (place : Place) (entry : Entry) :
    (fs.set place entry).set place entry = fs.set place entry := by
  rw [set, set, put_put]

/-- Writing a text where it has been written changes nothing. -/
theorem write_of_write {text : String} (h : fs.write p text = .ok after) : after.write p text = .ok after := by
  obtain ⟨directory, name, htarget, hslash, hdots, hlimit, hfree, rfl⟩ := write_eq_ok_iff.mp h
  have hplace : directory ++ [name] ≠ [] := by simp
  have hextends := extends_set hplace hfree (.file text.toUTF8)
  refine write_eq_ok_iff.mpr
    ⟨directory, name, target_of_extends hextends htarget, hslash, hdots, hlimit, ?_, (set_set ..).symm⟩
  rw [entryAt_set fs hplace, if_pos rfl]
  nofun

end FileSystem
end ApiReference
