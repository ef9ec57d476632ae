import Mathlib.Data.List.Basic
import AccumulatorMachine.Files.Tree

/-!
# Files are read back

A file that has been written is found where it was written: the directories that its path leads
through are still there, and the last name of the path now has the content. Only what lies outside
the tree is not kept.
-/

namespace AccumulatorMachine

theorem Path.exists_last_component {cs : List Char} (hne : cs ≠ [])
    (hlast : cs.getLast? ≠ some '/') :
    ∃ above last, components cs = above ++ [last] ∧ last ≠ [] := by
  induction cs with
  | nil => exact (hne rfl).elim
  | cons c cs ih =>
    by_cases hcs : cs = []
    · subst hcs
      have hc : c ≠ '/' := fun h => hlast (congrArg some h)
      exact ⟨[], [c], by simp [components, hc], List.cons_ne_nil c []⟩
    · rw [List.getLast?_cons_of_ne_nil hcs] at hlast
      obtain ⟨above, last, hcomponents, hnonempty⟩ := ih hcs hlast
      unfold components
      rw [hcomponents]
      split_ifs
      · exact ⟨[] :: above, last, rfl, hnonempty⟩
      · cases above with
        | nil => exact ⟨[], c :: last, rfl, List.cons_ne_nil c last⟩
        | cons first rest => exact ⟨(c :: first) :: rest, last, rfl, hnonempty⟩

namespace FileTree

variable {t t' : FileTree} {path : String} {content : List UInt8} {start spot : Spot}
  {names cs : List String} {c : String}

/-- A component that is looked up in a directory, and may be. -/
structure IsEntry (c : String) : Prop where
  moves : ¬(c = "" ∨ c = ".")
  ne_parent : c ≠ ".."
  short : isLongName c = false

/-- The directory in which a component leaves a path that goes on. -/
inductive Enters (t : FileTree) : Spot → String → Spot → Prop
  | stay {spot : Spot} {c : String} (hc : c = "" ∨ c = ".") : Enters t spot c spot
  | up (spot : Spot) : Enters t spot ".." spot.parent
  | down {names : List String} {c : String} (hc : IsEntry c)
    (hnode : t.node? (names ++ [c]) = some .directory) :
    Enters t (.inside names) c (.inside (names ++ [c]))

theorem follow_of_isEntry (hc : IsEntry c) (names rest : List String) :
    t.follow (.inside names) (c :: rest) =
      match t.node? (names ++ [c]) with
      | none => .error .notFound
      | some .directory => t.follow (.inside (names ++ [c])) rest
      | some (.file content) =>
        if rest.isEmpty then .ok (.file content) else .error .notDirectory :=
  (if_neg hc.moves).trans ((if_neg hc.ne_parent).trans (if_neg (Bool.eq_false_iff.1 hc.short)))

theorem follow_outside_of_isEntry (hc : IsEntry c) (rest : List String) :
    t.follow .outside (c :: rest) = .error .notFound :=
  (if_neg hc.moves).trans ((if_neg hc.ne_parent).trans (if_neg (Bool.eq_false_iff.1 hc.short)))

theorem Enters.follow_eq {next : Spot} (h : t.Enters start c next) (rest : List String) :
    t.follow start (c :: rest) = t.follow next rest := by
  cases h with
  | stay hc => cases start <;> exact if_pos hc
  | up => rfl
  | down hc hnode => rw [follow_of_isEntry hc, hnode]

theorem exists_enters (h : t.follow start (c :: cs) = .ok (.directory spot)) :
    ∃ next, t.Enters start c next ∧ t.follow next cs = .ok (.directory spot) := by
  by_cases hstay : c = "" ∨ c = "."
  · have henters : t.Enters start c start := .stay hstay
    exact ⟨start, henters, (henters.follow_eq cs).symm.trans h⟩
  by_cases hup : c = ".."
  · subst hup
    exact ⟨start.parent, .up start, h⟩
  cases hlong : isLongName c with
  | true =>
    rw [follow.eq_def] at h
    dsimp only at h
    rw [if_neg hstay, if_neg hup, if_pos hlong] at h
    cases h
  | false =>
    have hc : IsEntry c := ⟨hstay, hup, hlong⟩
    cases start with
    | outside =>
      rw [follow_outside_of_isEntry hc] at h
      cases h
    | inside names =>
      rw [follow_of_isEntry hc] at h
      split at h
      next => cases h
      next hnode => exact ⟨.inside (names ++ [c]), .down hc hnode, h⟩
      next => split at h <;> cases h

theorem follow_append (h : t.follow start cs = .ok (.directory spot)) (rest : List String) :
    t.follow start (cs ++ rest) = t.follow spot rest := by
  induction cs generalizing start with
  | nil =>
    cases h
    rfl
  | cons c cs ih =>
    obtain ⟨next, henters, hnext⟩ := exists_enters h
    rw [List.cons_append, henters.follow_eq]
    exact ih hnext

theorem node?_put (hne : names ≠ []) (node : FileNode) (names' : List String) :
    (t.put names node).node? names' = if names' = names then some node else t.node? names' := by
  by_cases h : names' = names
  · subst h
    simp [node?, put, hne]
  · have hother : (t.nodes.filter (·.1 ≠ names)).find? (·.1 = names') =
        t.nodes.find? (·.1 = names') := by
      rw [List.find?_filter]
      congr 1
      funext entry
      by_cases hentry : entry.1 = names' <;> simp [hentry, h]
    rw [if_neg h]
    unfold node? put
    rw [List.find?_cons_of_neg (by simpa using Ne.symm h), hother]

theorem follow_put (hfree : t.node? names ≠ some .directory)
    (h : t.follow start cs = .ok (.directory spot)) :
    (t.put names (.file content)).follow start cs = .ok (.directory spot) := by
  have hne : names ≠ [] := by
    rintro rfl
    exact hfree rfl
  induction cs generalizing start with
  | nil => exact h
  | cons c cs ih =>
    obtain ⟨next, henters, hnext⟩ := exists_enters h
    have hkept : (t.put names (.file content)).Enters start c next := by
      cases henters with
      | stay hc => exact .stay hc
      | up => exact .up start
      | @down above _ hc hnode =>
        refine .down hc ?_
        rw [node?_put hne, if_neg ?_, hnode]
        rintro rfl
        exact hfree hnode
    rw [hkept.follow_eq]
    exact ih hnext

theorem endsWith_separator_iff :
    path.endsWith "/" = true ↔ path.toList.getLast? = some '/' := by
  rw [String.endsWith_eq_endsWith_toSlice, String.Slice.endsWith_string_iff, String.copy_toSlice]
  exact List.singleton_suffix_iff_getLast?_eq_some

theorem of_route_eq_ok (h : route path = .ok (start, cs)) : path ≠ "" ∧ cs = components path := by
  unfold route at h
  split_ifs at h with _ hempty <;> cases h <;> exact ⟨hempty, rfl⟩

theorem exists_last_component (hne : path ≠ "") (hlast : path.toList.getLast? ≠ some '/') :
    ∃ above last, components path = above ++ [last] ∧ last ≠ "" := by
  obtain ⟨above, last, hcs, hnonempty⟩ := Path.exists_last_component (by simpa using hne) hlast
  refine ⟨above.map String.ofList, String.ofList last, ?_, by simpa using hnonempty⟩
  rw [components, hcs, List.map_append]
  rfl

theorem endsWith_separator_of_write (h : t.write path content = .ok t') :
    path.endsWith "/" = false := by
  rw [Bool.eq_false_iff]
  intro hends
  unfold write at h
  cases hroute : route path with
  | error e =>
    rw [hroute] at h
    cases h
  | ok parts =>
    rw [hroute] at h
    simp only [bind, Except.bind, hends, true_or, if_true] at h
    split at h
    · cases h
    · split at h <;> cases h

/-- A file that has been written is the one under its name in the directory that its path leads
through. Nothing is kept of it if that directory is outside the tree. -/
theorem of_write_eq_ok (h : t.write path content = .ok t') :
    ∃ start above spot last, route path = .ok (start, above ++ [last]) ∧
      t.follow start above = .ok (.directory spot) ∧ IsEntry last ∧
      (spot = .outside ∧ t' = t ∨
        ∃ names, spot = .inside names ∧ t.node? (names ++ [last]) ≠ some .directory ∧
          t' = t.put (names ++ [last]) (.file content)) := by
  have hends := endsWith_separator_of_write h
  unfold write at h
  cases hroute : route path with
  | error e =>
    rw [hroute] at h
    cases h
  | ok parts =>
    obtain ⟨start, cs⟩ := parts
    obtain ⟨hne, rfl⟩ := of_route_eq_ok hroute
    rw [hroute] at h
    simp only [bind, Except.bind] at h
    have hlast : path.toList.getLast? ≠ some '/' := by
      intro hslash
      rw [endsWith_separator_iff.2 hslash] at hends
      cases hends
    obtain ⟨above, last, hcs, hnonempty⟩ := exists_last_component hne hlast
    -- No component at the end is empty, so that the last one is the name of the file.
    have hreverse : (components path).reverse.dropWhile (· = "") = last :: above.reverse := by
      rw [hcs, List.reverse_append]
      exact List.dropWhile_cons_of_neg (by simpa using hnonempty)
    simp only [hreverse, hends, List.head?_cons, Option.getD_some, List.drop_one, List.tail_cons,
      List.reverse_reverse, Bool.false_eq_true, false_or] at h
    cases hfollow : t.follow start above with
    | error e =>
      rw [hfollow] at h
      cases h
    | ok found =>
      rw [hfollow] at h
      cases found with
      | file other => cases h
      | directory spot =>
        dsimp only at h
        split_ifs at h with hdots hlong
        have hentry : IsEntry last := by
          rw [not_or] at hdots
          exact ⟨not_or.2 ⟨hnonempty, hdots.1⟩, hdots.2, Bool.eq_false_iff.2 hlong⟩
        refine ⟨start, above, spot, last, by rw [hcs], hfollow, hentry, ?_⟩
        cases spot with
        | outside =>
          cases h
          exact .inl ⟨rfl, rfl⟩
        | inside names =>
          dsimp only at h
          split at h
          next => cases h
          next hnode =>
            cases h
            exact .inr ⟨names, rfl, hnode, rfl⟩

/-- A file that has been written is read back. Outside the tree there is none to be read. -/
theorem openFile_of_write (h : t.write path content = .ok t') :
    t'.openFile path = .ok (some content) ∨ t' = t ∧ t'.openFile path = .error .notFound := by
  obtain ⟨start, above, spot, last, hroute, hfollow, hentry, hkept⟩ := of_write_eq_ok h
  unfold openFile
  rw [hroute]
  rcases hkept with ⟨rfl, rfl⟩ | ⟨names, rfl, hfree, rfl⟩
  · have hnone := follow_append hfollow [last]
    rw [follow_outside_of_isEntry hentry] at hnone
    refine .inr ⟨rfl, ?_⟩
    simp only [bind, Except.bind, hnone]
  · have hkept : (t.put (names ++ [last]) (.file content)).follow start above =
        .ok (.directory (.inside names)) := follow_put hfree hfollow
    have hfound := follow_append hkept [last]
    rw [follow_of_isEntry hentry, node?_put (by simp), if_pos rfl] at hfound
    refine .inl ?_
    simp only [bind, Except.bind, hfound]
    rfl

end FileTree

end AccumulatorMachine
