import ExprWasm.Proofs.Files.Writing

/-! A file that is there as its path is written is there at the path in normal form.

The normal form leaves out empty parts and dots, which lead nowhere, so no more characters are in
its text than were written. -/

set_option autoImplicit false

namespace ExprWasm.Files

/-! ### The text of a normal form -/

namespace Path

theorem utf8ByteSize_le_of_sublist {short long : List Char} (left : List.Sublist short long) :
    (String.ofList short).utf8ByteSize ≤ (String.ofList long).utf8ByteSize := by
  have longer (c : Char) (rest : List Char) :
      (String.ofList (c :: rest)).utf8ByteSize =
        (String.ofList [c]).utf8ByteSize + (String.ofList rest).utf8ByteSize := by
    rw [← String.utf8ByteSize_append, ← String.ofList_append, List.singleton_append]
  induction left with
  | slnil => exact Nat.le_refl _
  | cons c _ inductionHypothesis =>
      rw [longer c]
      exact Nat.le_add_left_of_le inductionHypothesis
  | @cons_cons fewer more c _ inductionHypothesis =>
      rw [longer c fewer, longer c more]
      exact Nat.add_le_add_left inductionHypothesis _

theorem intercalate_cons_sublist (part : String) (parts : List String) :
    List.Sublist ("/".intercalate (part :: parts)).toList
      (part.toList ++ '/' :: ("/".intercalate parts).toList) := by
  cases parts with
  | nil =>
      rw [String.intercalate_singleton]
      exact List.sublist_append_left _ _
  | cons second later =>
      rw [String.intercalate_cons_cons, String.toList_append, String.toList_append,
        List.append_assoc]
      exact List.Sublist.refl _

/-- Some of the parts of a text, with single slashes between them. -/
theorem intercalate_filter_sublist
    (kept : String → Bool) (current rest : List Char) :
    List.Sublist ("/".intercalate ((partsFrom current rest).filter kept)).toList
      (current.reverse ++ rest) := by
  induction rest generalizing current with
  | nil =>
      rw [partsFrom, List.filter_cons]
      split
      · simp only [List.filter_nil, String.intercalate_singleton, String.toList_ofList,
          List.append_nil]
        exact List.Sublist.refl _
      · exact List.nil_sublist _
  | cons c rest inductionHypothesis =>
      rw [partsFrom]
      split
      · rename_i slash
        have later := inductionHypothesis []
        rw [slash, List.filter_cons]
        split
        · refine (intercalate_cons_sublist _ _).trans ?_
          rw [String.toList_ofList]
          exact (later.cons_cons '/').append_left _
        · exact (later.cons '/').trans (List.sublist_append_right _ _)
      · have later := inductionHypothesis (c :: current)
        rw [List.reverse_cons, List.append_assoc, List.singleton_append] at later
        exact later

/-- The slashes that a text begins with part nothing. -/
theorem filter_partsFrom_dropWhile
    {kept : String → Bool} (full : kept "" = false) (text : List Char) :
    (partsFrom [] text).filter kept = (partsFrom [] (text.dropWhile (· = '/'))).filter kept := by
  induction text with
  | nil => rfl
  | cons c rest inductionHypothesis =>
      by_cases slash : c = '/'
      · simp only [List.dropWhile_cons, slash, decide_true, if_true, partsFrom, List.reverse_nil,
          String.ofList_nil, List.filter_cons, full, Bool.false_eq_true, if_false]
        exact inductionHypothesis
      · simp only [List.dropWhile_cons, slash, decide_false, Bool.false_eq_true, if_false]

theorem rootOf_sublist (text : String) :
    List.Sublist (rootOf text).toList (text.toList.takeWhile (· = '/')) := by
  have slashes : text.toList.takeWhile (· = '/') =
      List.replicate (text.toList.takeWhile (· = '/')).length '/' := by
    refine List.eq_replicate_of_mem fun c member => ?_
    exact of_decide_eq_true (List.all_eq_true.mp List.all_takeWhile c member)
  rw [slashes]
  unfold rootOf
  simp only
  generalize (text.toList.takeWhile (· = '/')).length = count
  split
  · exact List.nil_sublist _
  · split
    · rename_i two
      rw [two]
      exact List.Sublist.refl _
    · have some : 1 ≤ count := by omega
      exact (List.replicate_sublist_replicate '/').mpr some

/-- The normal form has no other characters than the text it is of, unless it is a dot for the
current directory. -/
theorem text_ofText_sublist
    {text : String} (named : (ofText text).root.isEmpty = false ∨ (ofText text).parts ≠ []) :
    List.Sublist (ofText text).text.toList text.toList := by
  have elsewhere : ((ofText text).root.isEmpty && (ofText text).parts.isEmpty) = false := by
    rw [Bool.and_eq_false_iff, List.isEmpty_eq_false_iff]
    exact named
  have parts : (ofText text).parts =
      (partsFrom [] (text.toList.dropWhile (· = '/'))).filter
        fun part => decide (part ≠ ".") && !part.isEmpty := by
    rw [← filter_partsFrom_dropWhile rfl, ← List.filter_filter]
    rfl
  have joined := (rootOf_sublist text).append
    (intercalate_filter_sublist (fun part => decide (part ≠ ".") && !part.isEmpty) []
      (text.toList.dropWhile (· = '/')))
  rw [← parts, List.reverse_nil, List.nil_append, List.takeWhile_append_dropWhile] at joined
  rw [Path.text, elsewhere, if_neg Bool.false_ne_true, String.toList_append]
  exact joined

end Path

/-! ### The way to a file -/

namespace FileTree

/-- A dot leads nowhere. -/
theorem follow_filter
    {tree : FileTree} {path : String} {place reached : Place} {parts : List String}
    (followed : tree.follow path place parts = .ok reached) (text : String) :
    tree.follow text place (parts.filter (· ≠ ".")) = .ok reached := by
  induction parts generalizing place with
  | nil => exact followed
  | cons part rest inductionHypothesis =>
      rcases follow_cons followed with ⟨entered, short, further⟩
      by_cases dot : part = "."
      · rw [List.filter_cons_of_neg (by simp [dot])]
        rw [dot] at further
        exact inductionHypothesis further
      · rw [List.filter_cons_of_pos (by simp [dot]), follow_of_enter entered short]
        exact inductionHypothesis further

theorem start_of_isEmpty {root : String} (relative : root.isEmpty = true) : start root = [] := by
  rw [start, if_pos relative]

/-- A file that is found as its path is written is found at the normal form of the path. -/
theorem holds_of_status
    {tree : FileTree} {text : String} {content : List UInt8}
    (found : tree.status text = .ok (some (.file content))) :
    tree.Holds (Path.ofText text) content := by
  unfold status resolve at found
  split at found
  · cases found
  rename_i visible
  split at found
  · cases found
  simp only at found
  split at found
  · cases found
  rename_i place followed
  split at followed
  · cases followed
  rename_i short
  have entry : tree.entry? place = some (.file content) := Except.ok.inj found
  have normal : tree.follow (Path.ofText text).text (start (Path.ofText text).root)
      (Path.ofText text).parts = .ok place := by
    have further := follow_filter followed (Path.ofText text).text
    rw [List.filter_append] at further
    have dots : ((if text.toList.getLast? = some '/' then ["."] else []).filter (· ≠ ".")) =
        ([] : List String) := by
      split <;> rfl
    rw [dots, List.append_nil] at further
    exact further
  -- The current directory is no file.
  have named : (Path.ofText text).root.isEmpty = false ∨ (Path.ofText text).parts ≠ [] := by
    by_cases relative : (Path.ofText text).root.isEmpty = true
    · right
      intro nameless
      rw [nameless, start_of_isEmpty relative] at normal
      cases normal
      cases entry
    · left
      exact (Bool.not_eq_true _).mp relative
  have fewer := Path.text_ofText_sublist named
  refine ⟨place, place_of_follow ?_ ?_ normal, entry⟩
  · rw [Path.holdsNull, ← Bool.not_eq_true, List.contains_iff_mem]
    intro null
    exact visible (List.contains_iff_mem.mpr (fewer.subset null))
  · have smaller := Path.utf8ByteSize_le_of_sublist fewer
    rw [String.ofList_toList, String.ofList_toList] at smaller
    omega

end FileTree

end ExprWasm.Files
