import CreatorMigration.Disk
import Mathlib.Data.List.Basic

/-! # Files that are read and written

A file that can be read can be written, and then it holds what was written. Writing into a file
leaves the way to every file and the contents of all others alone.
-/

namespace CreatorMigration

namespace Disk

variable {disk : Disk} {location other : Location}

/-! ## Entries -/

theorem entry?_setEntry_self (entry : DiskEntry) (notRoot : location ≠ []) :
    Disk.entry? (disk.setEntry location entry) location = some entry := by
  simp [ entry?, setEntry, notRoot]

theorem lookup_filter_of_ne (entries : List (Location × DiskEntry)) (different : other ≠ location) :
    (entries.filter fun entry => entry.1 != location).lookup other = entries.lookup other := by
  have apart : (other == location) = false := beq_false_of_ne different
  induction entries with
  | nil => rfl
  | cons first rest inductionHypothesis =>
    obtain ⟨place, held⟩ := first
    rw [List.filter_cons, List.lookup_cons]
    by_cases here : place = location
    · simpa [here, apart] using inductionHypothesis
    · simp [here, List.lookup_cons, inductionHypothesis]

theorem entry?_setEntry_of_ne (entry : DiskEntry) (different : other ≠ location) :
    Disk.entry? (disk.setEntry location entry) other = disk.entry? other := by
  have apart : (other == location) = false := beq_false_of_ne different
  simp [ entry?, setEntry, List.lookup_cons, apart, lookup_filter_of_ne _ different]

/-! ## Ways -/

theorem follow_append (disk : Disk) (start : Location) (front back : List Component) :
    disk.follow start (front ++ back) =
      (disk.follow start front).bind fun between => disk.follow between back := by
  induction front generalizing start with
  | nil => rfl
  | cons first rest inductionHypothesis =>
    rw [List.cons_append, follow, follow]
    split <;> first | rfl | exact inductionHypothesis _

/-- Where a way ends in names, the location does. -/
theorem exists_of_follow_names {start : Location} {front : List Component} {names : List String}
    (followed : disk.follow start (front ++ names.map .name) = .ok location) :
    ∃ base, disk.follow start front = .ok base ∧ location = base ++ names := by
  rw [follow_append] at followed
  cases led : disk.follow start front with
  | error => simp [led, Except.bind] at followed
  | ok base =>
    refine ⟨base, rfl, ?_⟩
    rw [led] at followed
    change disk.follow base (names.map .name) = .ok location at followed
    -- the induction moves the base along the names, so it must not know how the base was reached
    clear led
    induction names generalizing base with
    | nil =>
      rw [List.append_nil]
      exact (Except.ok.inj followed).symm
    | cons first rest inductionHypothesis =>
      rw [List.map_cons, follow] at followed
      split at followed
      · cases followed
      · rw [inductionHypothesis _ followed, enter, List.append_assoc]
        rfl
      · cases followed

/-- What a name leads to stands in a directory. -/
theorem directory_of_follow_name {start : Location} {front : List Component} {name : String}
    (followed : disk.follow start (front ++ [.name name]) = .ok location) :
    disk.entry? location.dropLast = some .directory := by
  rw [follow_append] at followed
  cases led : disk.follow start front with
  | error => simp [led, Except.bind] at followed
  | ok base =>
    rw [led] at followed
    change disk.follow base [.name name] = .ok location at followed
    rw [follow] at followed
    split at followed
    · cases followed
    · next here =>
      cases followed
      rw [enter, List.dropLast_concat, here]
    · cases followed

/-- Other contents of a file change no way. -/
theorem locate_setEntry {old : String} (file : disk.entry? location = some (.text old))
    (new : String) (path : Path) :
    (disk.setEntry location (.text new)).locate path = disk.locate path := by
  have notRoot : location ≠ [] := by
    rintro rfl
    simp [ entry?] at file
  -- on the way it only matters which entries are directories, and a file is none before and after
  have follows (start : Location) (parts : List Component) :
      (disk.setEntry location (.text new)).follow start parts = disk.follow start parts := by
    induction parts generalizing start with
    | nil => rfl
    | cons first rest inductionHypothesis =>
      rw [follow, follow]
      by_cases here : start = location
      · subst here
        rw [entry?_setEntry_self _ notRoot, file]
      · rw [entry?_setEntry_of_ne _ here]
        split <;> first | rfl | exact inductionHypothesis _
  rw [locate, locate, follows]
  rfl

/-! ## Files -/

/-- A path leads to a file with a text. -/
structure IsFile (disk : Disk) (path : Path) (location : Location) (content : String) : Prop where
  located : disk.locate path = .ok location
  held : disk.entry? location = some (.text content)
  directory : disk.entry? location.dropLast = some .directory
  plain : Text.hasEnd "/" path.text = false

variable {path : Path} {content : String}

/-- What can be read is the text at the end of the path. -/
theorem exists_of_read (read : disk.read path = .ok content) :
    ∃ location, disk.locate path = .ok location ∧ disk.entry? location = some (.text content) ∧
      Text.hasEnd "/" path.text = false := by
  cases located : disk.locate path with
  | error => simp [Disk.read, Disk.find, located, bind, Except.bind] at read
  | ok location =>
    cases held : disk.entry? location with
    | none =>
      simp [Disk.read, Disk.find, located, held, bind, Except.bind, throw, throwThe,
        MonadExceptOf.throw] at read
    | some entry =>
      simp only [Disk.read, Disk.find, located, held, bind, Except.bind, pure, Except.pure] at read
      cases entry with
      | directory | binary => cases read
      | text own =>
        dsimp only at read
        split at read
        · cases read
        · next plain =>
          cases read
          exact ⟨location, rfl, held, by simpa using plain⟩

/-- A file with a name of its own that can be read is a file with that text. -/
theorem exists_isFile_of_read {name : String} (named : path.fileName? = some name)
    (read : disk.read path = .ok content) : ∃ location, disk.IsFile path location content := by
  obtain ⟨front, parts⟩ : ∃ front, path.components = front ++ [.name name] := by
    unfold Path.fileName? at named
    split at named
    · next last =>
      cases named
      exact List.getLast?_eq_some_iff.1 last
    · cases named
  obtain ⟨location, located, held, plain⟩ := exists_of_read read
  have directory : disk.entry? location.dropLast = some .directory := by
    unfold locate at located
    split at located
    · cases located
    · rw [parts] at located
      exact directory_of_follow_name located
  exact ⟨location, located, held, directory, plain⟩

theorem exists_of_write {after : Disk} (wrote : disk.write path content = .ok after) :
    ∃ location, disk.locate path = .ok location ∧
      after = disk.setEntry location (.text content) := by
  cases located : disk.locate path with
  | error => simp [Disk.write, located, bind, Except.bind] at wrote
  | ok location =>
    refine ⟨location, rfl, ?_⟩
    simp only [Disk.write, located, bind, Except.bind] at wrote
    split at wrote
    · cases wrote
    · cases wrote
    · exact (Except.ok.inj wrote).symm
    · cases wrote

namespace IsFile

theorem read (file : disk.IsFile path location content) : disk.read path = .ok content := by
  simp [Disk.read, Disk.find, file.located, file.held, file.plain, bind, Except.bind, pure,
    Except.pure]

theorem write (file : disk.IsFile path location content) (new : String) :
    disk.write path new = .ok (disk.setEntry location (.text new)) := by
  simp [Disk.write, file.located, file.held, file.directory, bind, Except.bind, pure, Except.pure]

theorem written (file : disk.IsFile path location content) (new : String) :
    (disk.setEntry location (.text new)).IsFile path location new := by
  have notRoot : location ≠ [] := by
    rintro rfl
    simpa [ entry?] using file.held
  refine ⟨(locate_setEntry file.held new path).trans file.located,
    entry?_setEntry_self _ notRoot, ?_, file.plain⟩
  -- a location that holds a text is not the directory in front of it
  rw [entry?_setEntry_of_ne _ fun same => ?_, file.directory]
  cases (same ▸ file.directory).symm.trans file.held

theorem kept {otherPath : Path} {otherContent : String}
    (file : disk.IsFile path location content)
    (otherFile : disk.IsFile otherPath other otherContent) (different : other ≠ location)
    (new : String) :
    (disk.setEntry location (.text new)).IsFile otherPath other otherContent := by
  refine ⟨(locate_setEntry file.held new otherPath).trans otherFile.located, ?_, ?_,
    otherFile.plain⟩
  · rw [entry?_setEntry_of_ne _ different, otherFile.held]
  · rw [entry?_setEntry_of_ne _ fun same => ?_, otherFile.directory]
    cases (same ▸ otherFile.directory).symm.trans file.held

end IsFile

end Disk

end CreatorMigration
