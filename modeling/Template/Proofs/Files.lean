import Template.Files
import Template.Proofs.Running

/-!
# Writing a file

A file is written at the place that its path leads to.  What is listed at other places
stays, every directory stays one, and so the same path leads to the new text
afterwards.
-/

namespace Template.Files

variable {files : Files}

theorem lookup_put (files : Files) (spelling text key : String) :
    (files.put spelling text).lookup key =
      if key = spelling then some (.file text) else files.lookup key := by
  induction files with
  | nil =>
      by_cases same : key = spelling
      · simp [put, same]
      · have differs : (key == spelling) = false := beq_false_of_ne same
        simp [put, List.lookup_cons, same, differs]
  | cons listed rest inductionHypothesis =>
      obtain ⟨name, entry⟩ := listed
      rw [put]
      by_cases found : name = spelling
      · by_cases same : key = spelling
        · simp [found, same]
        · have differs : (key == spelling) = false := beq_false_of_ne same
          simp [List.lookup_cons, found, same, differs]
      · by_cases same : key = name
        · simp [found, same]
        · have differs : (key == name) = false := beq_false_of_ne same
          simp [List.lookup_cons, found, differs, inductionHypothesis]

/-- What a place holds after a text is put at a spelling. -/
theorem entry?_put (files : Files) (spelling text : String) (place : Place) :
    Files.entry? (files.put spelling text) place =
      if place.names ≠ [] ∧ place.text = spelling then some (.file text)
      else files.entry? place := by
  by_cases top : place.names = []
  · simp [ entry?, top]
  · by_cases same : place.text = spelling <;> simp [ entry?, top, lookup_put, same]

/-! ## The way to a path -/

section Walking

variable {target place last : Place} {name : String} {names : List String}

theorem isSome_entry?_put (present : (files.entry? place).isSome = true)
    (spelling text : String) :
    (Files.entry? (files.put spelling text) place).isSome = true := by
  rw [entry?_put]
  split
  next => rfl
  next => exact present

/-- A directory stays one when a text is put at a place that is none. -/
theorem entry?_put_directory (noDirectory : files.entry? target ≠ some .directory)
    (directory : files.entry? place = some .directory) (text : String) :
    Files.entry? (files.put target.text text) place = some .directory := by
  rw [entry?_put]
  split
  next same =>
    have top : target.names ≠ [] := by
      intro top
      exact noDirectory (by simp [ entry?, top])
    exact absurd (by simpa [ entry?, same, top] using directory) noDirectory
  next => exact directory

theorem step_put (noDirectory : files.entry? target ≠ some .directory)
    (stepped : files.step place name = .ok last) (text : String) :
    (files.put target.text text).step place name = .ok last := by
  by_cases directory : files.entry? place = some .directory
  · rw [step, if_neg (not_not_intro directory)] at stepped
    rw [step, if_neg (not_not_intro (entry?_put_directory noDirectory directory text))]
    split at stepped
    next dots =>
      rw [if_pos dots]
      exact stepped
    next noDots =>
    split at stepped
    next => cases stepped
    next fits =>
    split at stepped
    next present =>
      rw [if_neg noDots, if_neg fits, if_pos (isSome_entry?_put present target.text text)]
      exact stepped
    next => cases stepped
  · rw [step, if_pos directory] at stepped
    cases stepped

theorem walk_put (noDirectory : files.entry? target ≠ some .directory)
    (walked : files.walk place names = .ok last) (text : String) :
    (files.put target.text text).walk place names = .ok last := by
  induction names generalizing place with
  | nil => exact walked
  | cons name rest inductionHypothesis =>
      rw [walk] at walked ⊢
      cases stepped : files.step place name with
      | error fault =>
          rw [stepped] at walked
          cases walked
      | ok next =>
          rw [stepped] at walked
          rw [step_put noDirectory stepped text]
          exact inductionHypothesis walked

theorem walk_append (files : Files) (place : Place) (first second : List String) :
    files.walk place (first ++ second) =
      (files.walk place first).bind fun middle => files.walk middle second := by
  induction first generalizing place with
  | nil => rfl
  | cons name rest inductionHypothesis =>
      rw [List.cons_append, walk, walk]
      cases files.step place name with
      | error fault => rfl
      | ok next => exact inductionHypothesis next

end Walking

/-! ## Writing and reading -/

/-- A path that can be written to: its last name is given in a directory that is there,
and does not name another directory. -/
theorem target_eq_ok {path : String} {place : Place} (found : files.target path = .ok place) :
    ∃ parsed front name parent, pathOf path = .ok parsed ∧ parsed.names = front ++ [name] ∧
      parsed.closed = false ∧ Path.isDots name = false ∧ ¬ maxName < name.utf8ByteSize ∧
      files.walk parsed.start front = .ok parent ∧ files.entry? parent = some .directory ∧
      place = parent.next name ∧ files.entry? place ≠ some .directory := by
  rw [target] at found
  obtain ⟨parsed, parsedEq, found⟩ := ok_of_bind found
  split at found
  next => cases found
  next name lastEq =>
  obtain ⟨parent, walked, found⟩ := ok_of_bind found
  obtain ⟨front, namesEq⟩ := List.getLast?_eq_some_iff.mp lastEq
  rw [namesEq, List.dropLast_concat] at walked
  split at found
  next => cases found
  next directory =>
  split at found
  next => cases found
  next plain =>
  split at found
  next => cases found
  next fits =>
  split at found
  next => cases found
  next noDirectory =>
    cases found
    simp only [Bool.or_eq_true, not_or, Bool.not_eq_true] at plain
    exact ⟨parsed, front, name, parent, parsedEq, namesEq, plain.2, plain.1, fits, walked,
      Decidable.not_not.mp directory, rfl, noDirectory⟩

theorem find_file {path text : String} {parsed : Path} {place : Place}
    (parsedEq : pathOf path = .ok parsed)
    (reached : files.walk parsed.start parsed.names = .ok place)
    (listed : files.entry? place = some (.file text)) (notClosed : parsed.closed = false) :
    files.find path = .ok (.file text) := by
  simp [find, parsedEq, reached, listed, notClosed, bind, Except.bind]

/-- What is written to a path is read from it. -/
theorem read_put_target {path : String} {place : Place} (found : files.target path = .ok place)
    (text : String) : (files.put place.text text).read path = .ok text := by
  obtain ⟨parsed, front, name, parent, parsedEq, namesEq, notClosed, noDots, fits, walked,
    directory, rfl, noDirectory⟩ := target_eq_ok found
  have written : Files.entry? (files.put (parent.next name).text text) (parent.next name) =
      some (.file text) := by
    have below : (parent.next name).names ≠ [] := by
      simp only [Path.isDots, Bool.or_eq_false_iff] at noDots
      simp [Place.next, noDots, Place.child]
    rw [entry?_put, if_pos ⟨below, rfl⟩]
  have stepped : (files.put (parent.next name).text text).step parent name =
      .ok (parent.next name) := by
    rw [step, if_neg (not_not_intro (entry?_put_directory noDirectory directory text)),
      if_neg (by simp [noDots]), if_neg fits, written]
    rfl
  have reached : (files.put (parent.next name).text text).walk parsed.start parsed.names =
      .ok (parent.next name) := by
    rw [namesEq, walk_append, walk_put noDirectory walked text]
    change (files.put (parent.next name).text text).walk parent [name] = _
    rw [walk, stepped]
    rfl
  rw [read, find_file parsedEq reached written notClosed]
  rfl

end Template.Files
