import ExprWasm.Files.FileTree

/-! What writing a file changes in a tree.

The entry at the place of the file is another one, and no other entry is: the new content, or as
much of it as was taken. No directory is lost, so every path that was followed before is followed to
the same place. A file that cannot be opened stays as it is. -/

set_option autoImplicit false

namespace ExprWasm.Files.FileTree

/-! ### Entries -/

theorem entry?_of_isAncestor {place : Place} (above : isAncestor place = true) (tree : FileTree) :
    tree.entry? place = some .directory := if_pos above

section Replaced

variable {place other : Place} (entry : Entry) (entries : List (Place × Entry))

theorem find?_replaced_other (different : other ≠ place) :
    (entries.map fun old => if old.1 = place then (place, entry) else old).find?
        (fun old => old.1 = other) =
      entries.find? fun old => old.1 = other := by
  induction entries with
  | nil => rfl
  | cons first rest inductionHypothesis =>
      rw [List.map_cons, List.find?_cons, List.find?_cons, inductionHypothesis]
      by_cases here : first.1 = place
      · have elsewhere : first.1 ≠ other := fun same => different (same.symm.trans here)
        rw [if_pos here, decide_eq_false (Ne.symm different), decide_eq_false elsewhere]
      · rw [if_neg here]

theorem find?_replaced_self (listed : (entries.any fun old => old.1 = place) = true) :
    (entries.map fun old => if old.1 = place then (place, entry) else old).find?
      (fun old => old.1 = place) = some (place, entry) := by
  induction entries with
  | nil => cases listed
  | cons first rest inductionHypothesis =>
      rw [List.map_cons, List.find?_cons]
      by_cases here : first.1 = place
      · rw [if_pos here, decide_eq_true rfl]
      · rw [List.any_cons, decide_eq_false here, Bool.false_or] at listed
        rw [if_neg here, decide_eq_false here]
        exact inductionHypothesis listed

end Replaced

theorem entry?_set_other
    {place other : Place} (different : other ≠ place) (tree : FileTree) (entry : Entry) :
    entry? (tree.set place entry) other = tree.entry? other := by
  have kept : (tree.set place entry).entries.find? (fun old => old.1 = other) =
      tree.entries.find? fun old => old.1 = other := by
    unfold set
    split
    · exact find?_replaced_other entry tree.entries different
    · simp only [List.find?_append, List.find?_singleton, decide_eq_false (Ne.symm different),
        Bool.false_eq_true, if_false, Option.or_none]
  unfold entry?
  rw [kept]

theorem entry?_set_self
    {place : Place} (below : isAncestor place = false) (tree : FileTree) (entry : Entry) :
    entry? (tree.set place entry) place = some entry := by
  have found : (tree.set place entry).entries.find? (fun old => old.1 = place) =
      some (place, entry) := by
    unfold set
    split
    · rename_i listed
      exact find?_replaced_self entry tree.entries listed
    · rename_i unlisted
      have absent : tree.entries.find? (fun old => old.1 = place) = none := by
        rw [List.find?_eq_none]
        intro old member same
        exact unlisted (List.any_eq_true.mpr ⟨old, member, same⟩)
      simp only [List.find?_append, absent, List.find?_singleton, decide_true, if_true,
        Option.none_or]
  unfold entry?
  rw [below, found]
  rfl

/-! ### Paths -/

/-- One part of a path is followed inside of a directory only. -/
theorem follow_cons
    {tree : FileTree} {path part : String} {place reached : Place} {rest : List String}
    (followed : tree.follow path place (part :: rest) = .ok reached) :
    tree.entry? place = some .directory ∧ ¬ longestName < part.utf8ByteSize ∧
      tree.follow path (enter place part) rest = .ok reached := by
  rw [follow] at followed
  cases entered : tree.entry? place with
  | none =>
      rw [entered] at followed
      cases followed
  | some entry =>
      rw [entered] at followed
      cases entry with
      | file content => cases followed
      | directory =>
          simp only at followed
          split at followed
          · cases followed
          · rename_i short
            exact ⟨rfl, short, followed⟩

theorem follow_of_enter
    {tree : FileTree} {part : String} {place : Place}
    (entered : tree.entry? place = some .directory)
    (short : ¬ longestName < part.utf8ByteSize) (path : String) (rest : List String) :
    tree.follow path place (part :: rest) = tree.follow path (enter place part) rest := by
  rw [follow, entered]
  simp only [if_neg short]

/-- Following a path needs no more than the directories on the way. -/
theorem follow_of_directories
    {tree other : FileTree}
    (kept : ∀ place, tree.entry? place = some .directory → other.entry? place = some .directory)
    {path : String} {place reached : Place} {parts : List String}
    (followed : tree.follow path place parts = .ok reached) (text : String) :
    other.follow text place parts = .ok reached := by
  induction parts generalizing place with
  | nil => exact followed
  | cons part rest inductionHypothesis =>
      obtain ⟨entered, short, further⟩ := follow_cons followed
      rw [follow_of_enter (kept place entered) short]
      exact inductionHypothesis further

/-- The last part of a path is looked up in the directory that the others lead to. -/
theorem follow_append
    {tree : FileTree} {path name : String} {place reached : Place} {parts : List String}
    (followed : tree.follow path place (parts ++ [name]) = .ok reached) :
    ∃ directory, tree.follow path place parts = .ok directory ∧ reached = enter directory name := by
  induction parts generalizing place with
  | nil =>
      obtain ⟨_, _, ended⟩ := follow_cons followed
      cases ended
      exact ⟨place, rfl, rfl⟩
  | cons part rest inductionHypothesis =>
      obtain ⟨entered, short, further⟩ := follow_cons followed
      rw [follow_of_enter entered short]
      exact inductionHypothesis further

theorem place_eq_ok
    {tree : FileTree} {path : Path} {place : Place} (leads : tree.place path = .ok place) :
    Path.holdsNull path.text = false ∧ ¬ longestPath < path.text.utf8ByteSize ∧
      tree.follow path.text (start path.root) path.parts = .ok place := by
  unfold FileTree.place resolve at leads
  split at leads
  · cases leads
  · rename_i named
    refine ⟨(Bool.not_eq_true _).mp named, ?_⟩
    split at leads
    · cases leads
    · rename_i followed
      cases leads
      split at followed
      · cases followed
      · rename_i short
        exact ⟨short, followed⟩

theorem place_of_follow
    {tree : FileTree} {path : Path} {place : Place} (named : Path.holdsNull path.text = false)
    (short : ¬ longestPath < path.text.utf8ByteSize)
    (followed : tree.follow path.text (start path.root) path.parts = .ok place) :
    tree.place path = .ok place := by
  unfold FileTree.place resolve
  rw [named, if_neg short, followed]
  rfl

theorem place_of_directories
    {tree other : FileTree}
    (kept : ∀ place, tree.entry? place = some .directory → other.entry? place = some .directory)
    {path : Path} {place : Place} (leads : tree.place path = .ok place) :
    other.place path = .ok place := by
  obtain ⟨named, short, followed⟩ := place_eq_ok leads
  exact place_of_follow named short (follow_of_directories kept followed _)

/-! ### Reading and writing -/

def Holds (tree : FileTree) (path : Path) (content : List UInt8) : Prop :=
  ∃ place, tree.place path = .ok place ∧ tree.entry? place = some (.file content)

structure Admits (tree : FileTree) (path : Path) (place : Place) : Prop where
  leads : tree.place path = .ok place
  free : tree.entry? place ≠ some .directory

structure Opens (tree : FileTree) (path : Path) (place : Place) : Prop extends
    Admits tree path place where
  permitted : ∀ failure, tree.writeAnswer place ≠ .refused failure

theorem read_eq_ok_iff {tree : FileTree} {path : Path} {content : List UInt8} :
    tree.read path = .ok content ↔ tree.Holds path content := by
  unfold read Holds
  constructor
  · intro reads
    split at reads
    · cases reads
    · rename_i place leads
      split at reads
      · cases reads
      · cases reads
      · rename_i held
        cases reads
        exact ⟨place, leads, held⟩
  · rintro ⟨place, leads, held⟩
    rw [leads]
    simp only [held]

theorem Holds.unique
    {tree : FileTree} {path : Path} {content other : List UInt8} (held : tree.Holds path content)
    (also : tree.Holds path other) : content = other :=
  Except.ok.inj ((read_eq_ok_iff.mpr held).symm.trans (read_eq_ok_iff.mpr also))

theorem Holds.admits
    {tree : FileTree} {path : Path} {content : List UInt8} (held : tree.Holds path content) :
    ∃ place, tree.Admits path place := by
  rcases held with ⟨place, leads, entry⟩
  refine ⟨place, leads, ?_⟩
  rw [entry]
  nofun

/-- What is written depends on the answer at the place. -/
theorem Admits.write_eq
    {tree : FileTree} {path : Path} {place : Place} (admits : tree.Admits path place)
    (content : List UInt8) :
    tree.write path content =
      match tree.writeAnswer place with
      | .accepted => (.ok (), tree.set place (.file content))
      | .refused failure => (.error (.system failure), tree)
      | .cutShort taken failure =>
          (.error (.system failure), tree.set place (.file (content.take taken))) := by
  unfold write
  rw [admits.leads]
  simp only
  split
  · rename_i isDirectory
    exact absurd isDirectory admits.free
  · rfl

/-- A file that cannot be opened is left alone. -/
theorem write_of_closed
    {tree : FileTree} {path : Path} (closed : ∀ place, ¬ tree.Opens path place)
    (content : List UInt8) : ∃ failure, tree.write path content = (.error failure, tree) := by
  by_cases possible : ∃ place, tree.Admits path place
  · obtain ⟨place, admits⟩ := possible
    rw [admits.write_eq]
    cases answer : tree.writeAnswer place with
    | refused failure => exact ⟨_, rfl⟩
    | accepted | cutShort taken failure =>
        refine absurd ⟨admits, fun failure => ?_⟩ (closed place)
        rw [answer]
        nofun
  · unfold write
    split
    · exact ⟨_, rfl⟩
    · rename_i place leads
      split
      · exact ⟨_, rfl⟩
      · rename_i free
        exact absurd ⟨place, leads, free⟩ possible

/-- The file is complete exactly if it could be opened and was not cut short. -/
theorem write_eq_ok_iff {tree after : FileTree} {path : Path} {content : List UInt8} :
    tree.write path content = (.ok (), after) ↔
      ∃ place, tree.Admits path place ∧ tree.writeAnswer place = .accepted ∧
        after = tree.set place (.file content) := by
  constructor
  · intro writes
    by_cases possible : ∃ place, tree.Opens path place
    · obtain ⟨place, opens⟩ := possible
      rw [opens.write_eq] at writes
      cases answer : tree.writeAnswer place with
      | accepted =>
          rw [answer] at writes
          exact ⟨place, opens.toAdmits, answer, (congrArg Prod.snd writes).symm⟩
      | refused failure | cutShort taken failure =>
          rw [answer] at writes
          cases writes
    · obtain ⟨failure, refuses⟩ := write_of_closed (not_exists.mp possible) content
      rw [refuses] at writes
      cases writes
  · rintro ⟨place, admits, accepted, rfl⟩
    rw [admits.write_eq, accepted]

/-- Nothing is changed by a write but the file at the place that the path leads to. -/
theorem write_confined (tree : FileTree) (path : Path) (content : List UInt8) :
    (tree.write path content).2 = tree ∨
      ∃ place stored, tree.Opens path place ∧
        (tree.write path content).2 = tree.set place (.file stored) := by
  by_cases possible : ∃ place, tree.Opens path place
  · obtain ⟨place, opens⟩ := possible
    have written := opens.write_eq content
    cases answer : tree.writeAnswer place with
    | accepted =>
        rw [answer] at written
        exact Or.inr ⟨place, content, opens, congrArg Prod.snd written⟩
    | refused failure => exact absurd answer (opens.permitted failure)
    | cutShort taken failure =>
        rw [answer] at written
        exact Or.inr ⟨place, content.take taken, opens, congrArg Prod.snd written⟩
  · obtain ⟨failure, refuses⟩ := write_of_closed (not_exists.mp possible) content
    exact Or.inl (congrArg Prod.snd refuses)

namespace Admits

variable {tree : FileTree} {path : Path} {place : Place} (admits : tree.Admits path place)
  (content : List UInt8)

include admits

theorem below : isAncestor place = false := by
  cases above : isAncestor place with
  | false => rfl
  | true => exact absurd (entry?_of_isAncestor above tree) admits.free

theorem entry?_set : entry? (tree.set place (.file content)) place = some (.file content) :=
  entry?_set_self admits.below tree _

theorem directory_set
    (other : Place) (isDirectory : tree.entry? other = some .directory) :
    entry? (tree.set place (.file content)) other = some .directory := by
  have different : other ≠ place := by
    rintro rfl
    exact admits.free isDirectory
  rw [entry?_set_other different, isDirectory]

/-- The file that was written is the one found at its path. -/
theorem read_set : (tree.set place (.file content)).read path = .ok content :=
  read_eq_ok_iff.mpr
    ⟨place, place_of_directories (admits.directory_set content) admits.leads, admits.entry?_set content⟩

/-- Every file at another place is found as before. -/
theorem read_set_other
    {other : Path} {old : List UInt8} {elsewhere : Place} (leads : tree.place other = .ok elsewhere)
    (held : tree.entry? elsewhere = some (.file old)) (different : elsewhere ≠ place) :
    (tree.set place (.file content)).read other = .ok old := by
  refine read_eq_ok_iff.mpr ⟨elsewhere, place_of_directories (admits.directory_set content) leads, ?_⟩
  rw [entry?_set_other different, held]

/-- Where a file can be written there is a name for it. -/
theorem named : path.parts ≠ [] := by
  intro nameless
  obtain ⟨_, _, followed⟩ := place_eq_ok admits.leads
  rw [nameless] at followed
  cases followed
  have above : isAncestor (start path.root) = true := by
    unfold start
    split <;> rfl
  rw [admits.below] at above
  cases above

end Admits

end ExprWasm.Files.FileTree
