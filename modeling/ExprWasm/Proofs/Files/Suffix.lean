import ExprWasm.Proofs.Files.Writing

/-! Paths that differ in the suffix of their names.

A path that is given the suffix it has already stays as it is. With any other suffix it leads to
another place. -/

set_option autoImplicit false

namespace ExprWasm.Files

namespace Path

def HasSuffix (path : Path) (suffix : String) : Prop :=
  ∃ front stem, stem ≠ "" ∧ path.parts = front ++ [stem ++ suffix]

theorem withSuffix_eq_ok
    {path other : Path} {suffix : String} (made : path.withSuffix suffix = .ok other) :
    ∃ front name, path.parts = front ++ [name] ∧ other.root = path.root ∧
      other.parts = front ++ [String.ofList (stem name.toList) ++ suffix] := by
  unfold withSuffix at made
  split at made
  · cases made
  · rename_i name last
    obtain ⟨front, parts⟩ := List.getLast?_eq_some_iff.mp last
    cases made
    refine ⟨front, name, parts, rfl, ?_⟩
    rw [parts, List.dropLast_concat]

theorem withSuffix_of_parts
    {path : Path} {front : List String} {name : String} (parts : path.parts = front ++ [name])
    (suffix : String) :
    path.withSuffix suffix =
      .ok { path with parts := front ++ [String.ofList (stem name.toList) ++ suffix] } := by
  unfold withSuffix
  rw [parts, List.getLast?_concat, List.dropLast_concat]

theorem exists_withSuffix {path : Path} (named : path.parts ≠ []) (suffix : String) :
    ∃ other, path.withSuffix suffix = .ok other :=
  ⟨_, withSuffix_of_parts (List.dropLast_concat_getLast named).symm suffix⟩

section Suffix

variable {suffix : String} {extension : List Char} (dotted : suffix.toList = '.' :: extension)
  (extended : extension ≠ []) (undotted : '.' ∉ extension)

include extended undotted

theorem getLast?_dotted (front : List Char) : (front ++ '.' :: extension).getLast? ≠ some '.' := by
  intro last
  obtain ⟨before, final, rfl⟩ : ∃ before final, extension = before ++ [final] := by
    rcases List.eq_nil_or_concat extension with rfl | ⟨before, final, rfl⟩
    · exact absurd rfl extended
    · exact ⟨before, final, List.concat_eq_append⟩
  rw [← List.cons_append, ← List.append_assoc, List.getLast?_concat] at last
  cases last
  exact undotted (List.mem_append_right _ (List.mem_singleton_self _))

theorem stem_dotted (front : List Char) :
    stem (front ++ '.' :: extension) =
      if front.isEmpty then front ++ '.' :: extension else front := by
  have passed : ∀ c ∈ extension.reverse, decide (c ≠ '.') = true := by
    intro c member
    apply decide_eq_true
    rintro rfl
    exact undotted (List.mem_reverse.mp member)
  have reached : (front ++ '.' :: extension).reverse.dropWhile (· ≠ '.') = '.' :: front.reverse := by
    rw [List.reverse_append, List.reverse_cons, List.append_assoc,
      List.dropWhile_append_of_pos passed]
    exact List.dropWhile_cons_of_neg (by decide)
  have last := decide_eq_false (getLast?_dotted extended undotted front)
  unfold stem
  rw [reached]
  simp only [List.isEmpty_reverse, last, Bool.or_false, List.reverse_reverse]

include dotted

theorem withSuffix_of_hasSuffix {path : Path} (suffixed : path.HasSuffix suffix) :
    path.withSuffix suffix = .ok path := by
  obtain ⟨front, before, nonempty, parts⟩ := suffixed
  have filled : before.toList.isEmpty = false := by
    rw [List.isEmpty_eq_false_iff, Ne, String.toList_eq_nil_iff]
    exact nonempty
  rw [withSuffix_of_parts parts, String.toList_append, dotted, stem_dotted extended undotted,
    filled]
  simp only [Bool.false_eq_true, if_false, String.ofList_toList, ← parts]

/-- A name that the suffix does not change has it already. -/
theorem hasSuffix_of_name_eq
    {path : Path} {front : List String} {name : String} (parts : path.parts = front ++ [name])
    (same : name = String.ofList (stem name.toList) ++ suffix) : path.HasSuffix suffix := by
  refine ⟨front, String.ofList (stem name.toList), ?_, by rw [← same, parts]⟩
  intro empty
  rw [empty, String.empty_append] at same
  have kept := stem_dotted extended undotted []
  rw [List.nil_append, ← dotted, ← same] at kept
  rw [kept, List.isEmpty_nil, if_pos rfl, String.ofList_toList, same] at empty
  rw [empty] at dotted
  cases dotted

end Suffix

end Path

namespace FileTree

theorem enter_ne
    {name other : String} (different : name ≠ other) (here : other ≠ ".") (above : other ≠ "..")
    (place : Place) : enter place name ≠ enter place other := by
  have longer : enter place other = place ++ [other] := by
    unfold enter
    rw [if_neg here, if_neg above]
  intro same
  rw [longer] at same
  unfold enter parent at same
  split at same
  · have lengths := congrArg List.length same
    simp at lengths
  · split at same
    · split at same
      · have lengths := congrArg List.length same
        simp at lengths
      · split at same
        · rename_i outside
          have member : other ∈ ".." :: place := by
            rw [same]
            exact List.mem_append_right _ (List.mem_singleton_self _)
          rcases List.mem_cons.mp member with isAbove | inside
          · exact above isAbove
          · exact above (of_decide_eq_true (List.all_eq_true.mp outside other inside))
        · have lengths := congrArg List.length same
          simp only [List.length_dropLast, List.length_append, List.length_singleton] at lengths
          omega
    · exact different (List.singleton_inj.mp (List.append_cancel_left same))

/-- A path leads to another place with a suffix that it does not have. -/
theorem place_ne_of_withSuffix
    {suffix : String} {extension : List Char} (dotted : suffix.toList = '.' :: extension)
    (extended : extension ≠ []) (undotted : '.' ∉ extension) {tree : FileTree} {path other : Path}
    (made : path.withSuffix suffix = .ok other) (unsuffixed : ¬ path.HasSuffix suffix)
    {place elsewhere : Place} (leads : tree.place path = .ok place)
    (leadsOther : tree.place other = .ok elsewhere) : place ≠ elsewhere := by
  obtain ⟨front, name, parts, sameRoot, partsOther⟩ := Path.withSuffix_eq_ok made
  obtain ⟨_, _, followed⟩ := place_eq_ok leads
  obtain ⟨_, _, followedOther⟩ := place_eq_ok leadsOther
  rw [parts] at followed
  rw [partsOther, sameRoot] at followedOther
  obtain ⟨directory, reached, rfl⟩ := follow_append followed
  obtain ⟨sameDirectory, reachedOther, rfl⟩ := follow_append followedOther
  rw [follow_of_directories (fun _ => id) reached] at reachedOther
  cases reachedOther
  have last := Path.getLast?_dotted extended undotted (Path.stem name.toList)
  rw [← dotted, ← String.toList_ofList (l := Path.stem name.toList), ← String.toList_append] at last
  apply enter_ne
  · intro same
    exact unsuffixed (Path.hasSuffix_of_name_eq dotted extended undotted parts same)
  · intro here
    rw [here] at last
    exact last rfl
  · intro above
    rw [above] at last
    exact last rfl

end FileTree

end ExprWasm.Files
