/-
# Paths that differ in spelling only

Two paths are the same if their components are: repeated slashes, slashes at the end and dots
that are no first part do not count. Following a path, a part that is empty or a dot goes
nowhere; it only asks for a directory where it stands. Before a name nothing else would do
anyway, so all that such parts can change is what may stand at the end (`follow_eq`).

So a path that is the same as one to a file leads to that file, too, unless a slash or a dot
behind its last name asks for a directory, or it has become too long (`find_of_same`).

Key definitions: `Path.leads`, `Path.way`, `Path.asksDirectory`, `Path.mayNameFile`.
Key theorems: `way_of_same`, `follow_eq`, `find_of_same`, `read_eq_read_iff`.
-/
import ApiReference.Proofs.File.Changing

namespace ApiReference

/-! ### What counts of a path -/

namespace Path

/-- A part that leads somewhere; any other only asks for a directory. -/
def leads (part : String) : Bool := part ≠ "" ∧ part ≠ "."

/-- The parts of a path that lead somewhere. -/
def way (p : Path) : List String := p.parts.filter leads

/-- Behind the last part that leads somewhere there is one that asks for a directory. -/
def asksDirectory (parts : List String) : Bool := parts.getLast?.any fun part => !leads part

/-- The path is short enough, and nothing behind its last name asks for a directory. -/
def mayNameFile (p : Path) : Bool :=
  p.text.utf8ByteSize < FileSystem.pathLimit && !asksDirectory p.parts

/-- The part that a component comes from; the root and a first dot are no parts that lead. -/
def Component.part? : Component → Option String
  | .root | .here => none
  | .up => some ".."
  | .name text => some text

theorem bind_component? (part : String) :
    (component? part).bind Component.part? = if leads part then some part else none := by
  unfold component? leads
  by_cases hnone : part = "" ∨ part = "."
  · rcases hnone with rfl | rfl <;> rfl
  · rw [if_neg hnone, if_pos (decide_eq_true (not_or.mp hnone))]
    by_cases hup : part = ".."
    · rw [if_pos hup, hup]
      rfl
    · rw [if_neg hup]
      rfl

theorem component?_ne_root (part : String) : component? part ≠ some .root := by
  unfold component?
  split
  · nofun
  split <;> nofun

theorem head?_filterMap_ne_root (parts : List String) :
    (parts.filterMap component?).head? ≠ some .root := by
  intro h
  obtain ⟨part, -, hpart⟩ := List.mem_filterMap.mp (List.mem_of_mem_head? h)
  exact component?_ne_root part hpart

theorem map_stepsAfter (seen : String) (parts : List String) :
    (stepsAfter seen parts).map (·.1) = parts.filterMap component? := by
  induction parts generalizing seen with
  | nil => rfl
  | cons part parts ih =>
    unfold stepsAfter
    cases hc : component? part with
    | none => rw [List.filterMap_cons_none hc, ih]
    | some c => rw [List.filterMap_cons_some hc, List.map_cons, ih]

theorem filterMap_components (parts : List String) :
    (parts.filterMap component?).filterMap Component.part? = parts.filter leads := by
  rw [List.filterMap_filterMap, ← List.filterMap_eq_filter]
  refine List.filterMap_congr fun part _ => ?_
  rw [bind_component?, Option.guard]

/-- The first part of an absolute path is empty. -/
theorem exists_parts (p : Path) :
    ∃ first rest, p.parts = first :: rest ∧ (p.isAbsolute = true → first = "") := by
  unfold parts isAbsolute
  cases p.text.toList with
  | nil => exact ⟨"", [], rfl, fun _ => rfl⟩
  | cons c cs =>
    by_cases hc : c = '/'
    · exact ⟨"", _, by rw [splitSlashes, if_pos hc, List.map_cons, String.ofList_nil], fun _ => rfl⟩
    · obtain ⟨part, parts, hparts⟩ := List.exists_cons_of_ne_nil (splitSlashes_ne_nil (c :: cs))
      refine ⟨String.ofList part, parts.map String.ofList, by rw [hparts, List.map_cons], fun h => ?_⟩
      exact absurd (by simpa using h) hc

/-- The components of a path are its root or first dot, if it has one, and what its parts lead to. -/
theorem components_cases (p : Path) : ∃ front, p.components = front ++ p.parts.filterMap component? ∧
    (p.isAbsolute = true ∧ front = [.root] ∨ p.isAbsolute = false ∧ (front = [.here] ∨ front = [])) := by
  obtain ⟨first, rest, hparts, hfirst⟩ := exists_parts p
  unfold components steps
  rw [hparts]
  dsimp only
  by_cases habs : p.isAbsolute = true
  · obtain rfl := hfirst habs
    rw [if_pos habs, List.map_cons, map_stepsAfter]
    exact ⟨[.root], rfl, .inl ⟨habs, rfl⟩⟩
  rw [Bool.not_eq_true] at habs
  rw [if_neg (Bool.eq_false_iff.mp habs)]
  by_cases hdot : first = "."
  · rw [if_pos hdot, hdot, List.map_cons, map_stepsAfter]
    exact ⟨[.here], rfl, .inr ⟨habs, .inl rfl⟩⟩
  rw [if_neg hdot]
  cases hc : component? first with
  | none =>
    dsimp only
    rw [map_stepsAfter, List.filterMap_cons_none hc]
    exact ⟨[], rfl, .inr ⟨habs, .inr rfl⟩⟩
  | some c =>
    dsimp only
    rw [List.map_cons, map_stepsAfter, List.filterMap_cons_some hc]
    exact ⟨[], rfl, .inr ⟨habs, .inr rfl⟩⟩

theorem filterMap_part?_components (p : Path) : p.components.filterMap Component.part? = p.way := by
  obtain ⟨front, hcomponents, hfront⟩ := components_cases p
  have hnone : front.filterMap Component.part? = [] := by
    rcases hfront with ⟨-, rfl⟩ | ⟨-, rfl | rfl⟩ <;> rfl
  rw [hcomponents, List.filterMap_append, hnone, List.nil_append, filterMap_components, way]

theorem isAbsolute_iff (p : Path) : p.isAbsolute = true ↔ p.components.head? = some .root := by
  obtain ⟨front, hcomponents, ⟨habs, rfl⟩ | ⟨habs, rfl | rfl⟩⟩ := components_cases p
  · exact iff_of_true habs (hcomponents ▸ rfl)
  · exact iff_of_false (Bool.eq_false_iff.mp habs) (hcomponents ▸ nofun)
  · refine iff_of_false (Bool.eq_false_iff.mp habs) ?_
    rw [hcomponents]
    exact head?_filterMap_ne_root p.parts

theorem same_iff {p q : Path} : p.same q = true ↔ p.components = q.components := decide_eq_true_iff

/-- Paths that are the same have the same parts that lead somewhere. -/
theorem way_of_same {p q : Path} (h : p.same q = true) : p.way = q.way := by
  rw [← filterMap_part?_components, ← filterMap_part?_components, same_iff.mp h]

theorem isAbsolute_of_same {p q : Path} (h : p.same q = true) : p.isAbsolute = q.isAbsolute := by
  rw [Bool.eq_iff_iff, isAbsolute_iff, isAbsolute_iff, same_iff.mp h]

theorem text_ne_of_way {p : Path} (h : p.way ≠ []) : p.text ≠ "" := by
  intro htext
  have hparts : p.parts = [""] := by
    rw [parts, htext]
    rfl
  refine h ?_
  rw [way, hparts]
  rfl

/-! ### Characters of a path -/

theorem mem_splitSlashes {c : Char} (hc : c ≠ '/') (cs : List Char) :
    c ∈ cs ↔ ∃ part ∈ splitSlashes cs, c ∈ part := by
  induction cs with
  | nil => simp [splitSlashes]
  | cons d cs ih =>
    obtain ⟨part, parts, hparts⟩ := List.exists_cons_of_ne_nil (splitSlashes_ne_nil cs)
    by_cases hd : d = '/'
    · rw [splitSlashes, if_pos hd, List.mem_cons, ih]
      simp [hd, hc]
    · rw [splitSlashes, if_neg hd, List.mem_cons, ih, hparts]
      simp [or_assoc]

/-- A path has a null byte if a part that leads somewhere has. -/
theorem mem_null_iff (p : Path) : '\x00' ∈ p.text.toList ↔ ∃ part ∈ p.way, '\x00' ∈ part.toList := by
  rw [mem_splitSlashes (by decide)]
  unfold way parts
  simp only [List.mem_filter, List.mem_map]
  constructor
  · rintro ⟨cs, hcs, hnull⟩
    refine ⟨String.ofList cs, ⟨⟨cs, hcs, rfl⟩, ?_⟩, by rwa [String.toList_ofList]⟩
    unfold leads
    refine decide_eq_true ⟨?_, ?_⟩
    · rintro hempty
      have hcs : cs = [] := by simpa using congrArg String.toList hempty
      rw [hcs] at hnull
      cases hnull
    · rintro hdot
      have hcs : cs = ['.'] := by simpa using congrArg String.toList hdot
      rw [hcs] at hnull
      exact absurd (List.mem_singleton.mp hnull) (by decide)
  · rintro ⟨part, ⟨⟨cs, hcs, rfl⟩, -⟩, hnull⟩
    rw [String.toList_ofList] at hnull
    exact ⟨cs, hcs, hnull⟩

end Path

/-! ### Where a path leads -/

namespace FileSystem

open ApiReference.Path (leads asksDirectory)

/-- A part that leads nowhere stays, where there is a directory. -/
theorem step_of_not_leads (fs : FileSystem) (place : Place) {part : String} (h : leads part = false) :
    fs.step place part = if fs.hasDirectory place then .ok place else .error .notDirectory := by
  have hpart : part = "" ∨ part = "." := by
    unfold leads at h
    simpa [or_iff_not_imp_left] using h
  unfold step
  cases fs.hasDirectory place with
  | true => rw [if_neg (by decide), if_pos hpart]; rfl
  | false => rfl

theorem step_of_not_hasDirectory (fs : FileSystem) {place : Place} (h : fs.hasDirectory place = false)
    (part : String) : fs.step place part = .error .notDirectory := by
  unfold step
  rw [h]
  rfl

/-- The last of several parts that all lead nowhere asks for a directory. -/
theorem asksDirectory_of_filter_eq_nil {parts : List String} (hne : parts ≠ []) (h : parts.filter leads = []) :
    asksDirectory parts = true := by
  unfold Path.asksDirectory
  rw [List.getLast?_eq_some_getLast hne, Option.any_some]
  have hlast := List.filter_eq_nil_iff.mp h _ (List.getLast_mem hne)
  simpa using hlast

/-- A part that leads nowhere does nothing before another one, which asks for a directory, too. -/
theorem follow_of_not_leads (fs : FileSystem) (place : Place) {part : String} (h : leads part = false)
    (next : String) (rest : List String) :
    fs.follow place (part :: next :: rest) = fs.follow place (next :: rest) := by
  cases hd : fs.hasDirectory place with
  | true =>
    have hstay : fs.step place part = .ok place := by rw [step_of_not_leads fs place h, hd, if_pos rfl]
    rw [follow, hstay]
    rfl
  | false =>
    rw [follow, follow, step_of_not_hasDirectory fs hd, step_of_not_hasDirectory fs hd]
    rfl

/-- Parts lead where those of them lead that lead somewhere; if the last of them asks for a
directory, there must be one. -/
theorem follow_eq (fs : FileSystem) (place : Place) (parts : List String) :
    fs.follow place parts = (fs.follow place (parts.filter leads) >>= fun last =>
      if asksDirectory parts && !fs.hasDirectory last then .error .notDirectory else .ok last) := by
  induction parts generalizing place with
  | nil => rfl
  | cons part parts ih =>
    -- a part that leads nowhere matters as the last one only
    cases parts with
    | nil =>
      cases hleads : leads part with
      | true =>
        have hask : asksDirectory [part] = false := by simp [Path.asksDirectory, hleads]
        rw [List.filter_cons_of_pos hleads, hask]
        exact (bind_pure _).symm
      | false =>
        have hask : asksDirectory [part] = true := by simp [Path.asksDirectory, hleads]
        rw [List.filter_cons_of_neg (Bool.eq_false_iff.mp hleads), hask, follow, step_of_not_leads fs place hleads]
        cases hd : fs.hasDirectory place <;> simp [follow, hd, bind, Except.bind]
    | cons next rest =>
      have hask : asksDirectory (part :: next :: rest) = asksDirectory (next :: rest) := rfl
      cases hleads : leads part with
      | true =>
        rw [List.filter_cons_of_pos hleads, follow, follow, hask]
        cases fs.step place part with
        | error e => rfl
        | ok there => exact ih there
      | false =>
        rw [List.filter_cons_of_neg (Bool.eq_false_iff.mp hleads), follow_of_not_leads fs place hleads, hask]
        exact ih place

theorem follow_parts {fs : FileSystem} {place last : Place} {parts : List String}
    (h : fs.follow place (parts.filter leads) = .ok last) : fs.follow place parts =
      if asksDirectory parts && !fs.hasDirectory last then .error .notDirectory else .ok last := by
  rw [follow_eq, h]
  rfl

/-! ### What a path leads to -/

theorem hasDirectory_of_file {fs : FileSystem} {place : Place} {content : ByteArray}
    (h : fs.entry? place = some (.file content)) : fs.hasDirectory place = false := by
  rw [Bool.eq_false_iff, ne_eq, hasDirectory_iff, h]
  nofun

theorem find_eq_ok_iff {fs : FileSystem} {p : Path} {entry : Entry} : fs.find p = .ok entry ↔
    ∃ place last, fs.start p = .ok place ∧ fs.follow place p.parts = .ok last ∧ fs.entry? last = some entry := by
  unfold find locate
  constructor
  · intro h
    obtain ⟨last, hlocate, h⟩ := exists_of_bind_eq_ok h
    obtain ⟨place, hstart, hfollow⟩ := exists_of_bind_eq_ok hlocate
    refine ⟨place, last, hstart, hfollow, ?_⟩
    split at h
    · next hentry =>
      cases h
      exact hentry
    · cases h
  · rintro ⟨place, last, hstart, hfollow, hentry⟩
    rw [hstart]
    show (fs.follow place p.parts >>= _) = _
    rw [hfollow]
    simp only [bind, Except.bind, hentry]

theorem isFile_iff {fs : FileSystem} {p : Path} : fs.isFile p = true ↔ ∃ content, fs.find p = .ok (.file content) := by
  unfold isFile
  split
  · next content h => exact iff_of_true rfl ⟨content, h⟩
  · next hno =>
    refine iff_of_false Bool.false_ne_true ?_
    rintro ⟨content, h⟩
    exact hno content h

theorem start_eq_ok_iff {fs : FileSystem} {p : Path} {place : Place} : fs.start p = .ok place ↔
    '\x00' ∉ p.text.toList ∧ p.text.utf8ByteSize < pathLimit ∧ p.text ≠ "" ∧
      place = if p.isAbsolute then [] else fs.working := by
  unfold start
  by_cases hnull : '\x00' ∈ p.text.toList
  · rw [if_pos (List.contains_iff_mem.mpr hnull)]
    exact iff_of_false nofun fun h => h.1 hnull
  rw [if_neg (mt List.contains_iff_mem.mp hnull)]
  by_cases hlimit : pathLimit ≤ p.text.utf8ByteSize
  · rw [if_pos hlimit]
    exact iff_of_false nofun fun h => Nat.not_lt.mpr hlimit h.2.1
  rw [if_neg hlimit]
  by_cases hempty : p.text = ""
  · rw [if_pos hempty]
    exact iff_of_false nofun fun h => h.2.2.1 hempty
  rw [if_neg hempty, Except.ok.injEq]
  exact ⟨fun h => ⟨hnull, Nat.lt_of_not_le hlimit, hempty, h.symm⟩, fun h => h.2.2.2.symm⟩

/-- A path to a file leads to it by the parts that lead somewhere, of which it has some, and asks
for no directory. -/
theorem follow_way_of_find {fs : FileSystem} {p : Path} {content : ByteArray}
    (h : fs.find p = .ok (.file content)) :
    '\x00' ∉ p.text.toList ∧ p.way ≠ [] ∧ p.mayNameFile = true ∧
      ∃ last, fs.follow (if p.isAbsolute then [] else fs.working) p.way = .ok last ∧
        fs.entry? last = some (.file content) := by
  obtain ⟨place, last, hstart, hfollow, hentry⟩ := find_eq_ok_iff.mp h
  obtain ⟨hnull, hlimit, -, rfl⟩ := start_eq_ok_iff.mp hstart
  have hfile := hasDirectory_of_file hentry
  rw [follow_eq] at hfollow
  obtain ⟨there, hway, hend⟩ := exists_of_bind_eq_ok hfollow
  have hask : asksDirectory p.parts = false ∧ there = last := by
    split at hend
    · cases hend
    · next hnot =>
      cases hend
      simpa [hfile] using hnot
  have hne : p.way ≠ [] := by
    intro hnil
    obtain ⟨first, rest, hparts, -⟩ := p.exists_parts
    have hsome : p.parts ≠ [] := by simp [hparts]
    exact Bool.false_ne_true (hask.1.symm.trans (asksDirectory_of_filter_eq_nil hsome hnil))
  obtain ⟨hask, rfl⟩ := hask
  refine ⟨hnull, hne, ?_, there, hway, hentry⟩
  unfold Path.mayNameFile
  rw [hask, decide_eq_true hlimit]
  rfl

/-- A path that is the same as one to a file leads there too, if it is short enough and nothing
behind its last name asks for a directory. -/
theorem find_of_same {fs : FileSystem} {p q : Path} (hsame : p.same q = true) {content : ByteArray}
    (h : fs.find p = .ok (.file content)) :
    fs.find q = if pathLimit ≤ q.text.utf8ByteSize then .error .nameTooLong
      else if asksDirectory q.parts then .error .notDirectory else .ok (.file content) := by
  obtain ⟨hnull, hway, -, last, hfollow, hentry⟩ := follow_way_of_find h
  rw [Path.mem_null_iff, Path.way_of_same hsame, ← Path.mem_null_iff] at hnull
  rw [Path.way_of_same hsame] at hway
  rw [Path.way_of_same hsame, Path.isAbsolute_of_same hsame] at hfollow
  by_cases hlimit : pathLimit ≤ q.text.utf8ByteSize
  · rw [if_pos hlimit, find, locate, start, if_neg (mt List.contains_iff_mem.mp hnull), if_pos hlimit]
    rfl
  · have hstart : fs.start q = .ok (if q.isAbsolute then [] else fs.working) :=
      start_eq_ok_iff.mpr ⟨hnull, Nat.lt_of_not_le hlimit, Path.text_ne_of_way hway, rfl⟩
    -- what leads somewhere leads to the file; a part behind that asks for a directory in vain
    have hparts := follow_parts hfollow
    rw [hasDirectory_of_file hentry, Bool.not_false, Bool.and_true] at hparts
    rw [if_neg hlimit, find, locate, hstart]
    show (fs.follow _ q.parts >>= _) = _
    rw [hparts]
    cases asksDirectory q.parts with
    | true => rfl
    | false => simp only [Bool.false_eq_true, if_false, bind, Except.bind, hentry]

theorem find_eq_find_of_same {fs : FileSystem} {p q : Path} (hsame : p.same q = true) (h : fs.isFile p = true)
    (hq : q.mayNameFile = true) : fs.find q = fs.find p := by
  obtain ⟨content, hp⟩ := isFile_iff.mp h
  unfold Path.mayNameFile at hq
  obtain ⟨hlimit, hask⟩ : q.text.utf8ByteSize < pathLimit ∧ asksDirectory q.parts = false := by simpa using hq
  rw [find_of_same hsame hp, if_neg (Nat.not_le.mpr hlimit), hask, if_neg Bool.false_ne_true, hp]

/-- A path that may not name a file cannot be read, whatever its components lead to. -/
theorem read_of_not_mayNameFile {fs : FileSystem} {p q : Path} (hsame : p.same q = true) (h : fs.isFile p = true)
    (hq : q.mayNameFile = false) : fs.read q = .error .nameTooLong ∨ fs.read q = .error .notDirectory := by
  obtain ⟨content, hp⟩ := isFile_iff.mp h
  unfold read
  rw [find_of_same hsame hp]
  by_cases hlimit : pathLimit ≤ q.text.utf8ByteSize
  · rw [if_pos hlimit]
    exact .inl rfl
  · unfold Path.mayNameFile at hq
    have hask : asksDirectory q.parts = true := by simpa [Nat.lt_of_not_le hlimit] using hq
    rw [if_neg hlimit, hask, if_pos rfl]
    exact .inr rfl

/-- A path that is the same as one to a file is read like it if and only if it may name a file. -/
theorem read_eq_read_iff {fs : FileSystem} {p q : Path} (hsame : p.same q = true) (h : fs.isFile p = true) :
    fs.read q = fs.read p ↔ q.mayNameFile = true := by
  constructor
  · intro hread
    obtain ⟨content, hp⟩ := isFile_iff.mp h
    have hp' : fs.read p ≠ .error .nameTooLong ∧ fs.read p ≠ .error .notDirectory := by
      unfold read
      rw [hp]
      simp only [bind, Except.bind]
      split <;> exact ⟨nofun, nofun⟩
    by_contra hq
    rcases read_of_not_mayNameFile hsame h (Bool.eq_false_iff.mpr hq) with he | he
    · exact hp'.1 (hread.symm.trans he)
    · exact hp'.2 (hread.symm.trans he)
  · intro hq
    unfold read
    rw [find_eq_find_of_same hsame h hq]

end FileSystem
end ApiReference
