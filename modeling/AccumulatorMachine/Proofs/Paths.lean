import Mathlib.Data.List.TakeWhile
import AccumulatorMachine.Files.Path

/-!
# Names and extensions in paths

A path with a name is what comes before the name, the name, and a tail of separators and `.`
components that does not count. From it follows what another extension makes of a path: the stem of
its name stays and all behind it goes, unless the stem is a single dot, which an extension or a dot
behind it turns into a name of its own or into the directory above.
-/

namespace AccumulatorMachine.Path

/-- Separators and `.` components at the end of a path. -/
inductive Tail : List Char → Prop
  | nil : Tail []
  | separator {t : List Char} (h : Tail t) : Tail ('/' :: t)
  | current {t : List Char} (h : Tail t) : Tail ('/' :: '.' :: t)

structure IsName (name : List Char) : Prop where
  noSeparator : '/' ∉ name
  ne_nil : name ≠ []
  ne_current : name ≠ ['.']
  ne_parent : name ≠ ['.', '.']

/-- What comes before a name: nothing, or something that ends with a separator. -/
def IsFront (front : List Char) : Prop := ∀ c ∈ front.getLast?, c = '/'

namespace Tail

variable {t u : List Char}

theorem append (ht : Tail t) (hu : Tail u) : Tail (t ++ u) := by
  induction ht with
  | nil => exact hu
  | separator _ ih => exact .separator ih
  | current _ ih => exact .current ih

theorem take (ht : Tail t) (k : Nat) : Tail (t.take k) := by
  induction ht generalizing k with
  | nil => simpa using nil
  | separator _ ih =>
    cases k with
    | zero => exact nil
    | succ k => exact .separator (ih k)
  | current _ ih =>
    match k with
    | 0 => exact nil
    | 1 => exact .separator nil
    | k + 2 => exact .current (ih k)

theorem dropTail_reverse_append (ht : Tail t) (cs : List Char) :
    dropTail (t.reverse ++ cs) = dropTail cs := by
  induction ht generalizing cs with
  | nil => rfl
  | separator _ ih => simp [ih, dropTail]
  | current _ ih => simp [ih, dropTail]

end Tail

theorem exists_tail (cs : List Char) : ∃ t, Tail t ∧ cs = t.reverse ++ dropTail cs := by
  fun_induction dropTail cs with
  | case1 rest ih =>
    obtain ⟨t, ht, hrest⟩ := ih
    exact ⟨t ++ ['/'], ht.append (.separator .nil), by simpa using hrest⟩
  | case2 rest ih =>
    obtain ⟨t, ht, hrest⟩ := ih
    exact ⟨t ++ ['/', '.'], ht.append (.current .nil), by simpa using hrest⟩
  | case3 cs => exact ⟨[], .nil, rfl⟩

theorem dropTail_reverse_name {name : List Char} (hname : IsName name) (cs : List Char) :
    dropTail (name.reverse ++ cs) = name.reverse ++ cs := by
  have hslash : '/' ∉ name.reverse := fun h => hname.noSeparator (List.mem_reverse.1 h)
  cases hreverse : name.reverse with
  | nil => exact (hname.ne_nil (List.reverse_eq_nil_iff.1 hreverse)).elim
  | cons c rest =>
    rw [hreverse] at hslash
    unfold dropTail
    split
    next heq =>
      cases heq
      exact (hslash (List.mem_cons_self ..)).elim
    next heq =>
      -- A dot alone is no name, and no other name has a separator before its last dot.
      rw [List.cons_append, List.cons.injEq] at heq
      obtain ⟨rfl, heq⟩ := heq
      cases rest with
      | nil => exact (hname.ne_current (List.reverse_eq_iff.1 hreverse)).elim
      | cons d rest =>
        cases heq
        exact (hslash (by simp)).elim
    next => rfl

theorem takeWhile_reverse_append {front cs : List Char} (hcs : '/' ∉ cs) (hfront : IsFront front) :
    (cs.reverse ++ front.reverse).takeWhile (· ≠ '/') = cs.reverse := by
  have hbefore : ∀ c ∈ cs.reverse, decide (c ≠ '/') = true := by
    intro c hc
    simp only [decide_eq_true_eq]
    rintro rfl
    exact hcs (List.mem_reverse.1 hc)
  rw [List.takeWhile_append_of_pos hbefore]
  cases hreverse : front.reverse with
  | nil => exact List.append_nil _
  | cons c rest =>
    have hc : c = '/' := hfront c (by rw [List.getLast?_eq_head?_reverse, hreverse]; rfl)
    rw [List.takeWhile_cons_of_neg (by simp [hc]), List.append_nil]

/-- A path with a name is what comes before the name, the name, and a tail. -/
theorem split?_eq_some_iff {path front name : List Char} :
    split? path = some (front, name) ↔
      ∃ tail, path = front ++ name ++ tail ∧ Tail tail ∧ IsName name ∧ IsFront front := by
  constructor
  · intro h
    obtain ⟨t, ht, hpath⟩ := exists_tail path.reverse
    unfold split? at h
    dsimp only at h
    split at h
    next => cases h
    next hname =>
      cases h
      simp only [not_or] at hname
      refine ⟨t, ?_, ht, ⟨?_, hname.1, hname.2.1, hname.2.2⟩, ?_⟩
      · rw [← List.reverse_append, List.takeWhile_append_dropWhile]
        refine List.reverse_inj.1 ?_
        rwa [List.reverse_append, List.reverse_reverse]
      · intro hslash
        simpa using List.mem_takeWhile_imp (List.mem_reverse.1 hslash)
      · intro c hc
        rw [List.getLast?_reverse] at hc
        have hhead := List.head?_dropWhile_not (· ≠ '/') (dropTail path.reverse)
        rw [Option.mem_def.1 hc] at hhead
        simpa using hhead
  · rintro ⟨tail, rfl, htail, hname, hfront⟩
    have hreverse : dropTail (front ++ name ++ tail).reverse = name.reverse ++ front.reverse := by
      rw [List.reverse_append, htail.dropTail_reverse_append, List.reverse_append,
        dropTail_reverse_name hname]
    have htake := takeWhile_reverse_append hname.noSeparator hfront
    have hdrop : (name.reverse ++ front.reverse).dropWhile (· ≠ '/') = front.reverse := by
      have happend := List.takeWhile_append_dropWhile (p := (· ≠ '/'))
        (l := name.reverse ++ front.reverse)
      rw [htake] at happend
      exact List.append_cancel_left happend
    unfold split?
    simp only [hreverse, htake, hdrop, List.reverse_reverse]
    rw [if_neg]
    rintro (h | h | h)
    · exact hname.ne_nil h
    · exact hname.ne_current h
    · exact hname.ne_parent h

def stem (name : List Char) : List Char := (splitDot name).1

def dotted (ext : List Char) : List Char := if ext = [] then [] else '.' :: ext

theorem dropWhile_reverse_append {e : List Char} (he : '.' ∉ e) (s : List Char) :
    (s ++ e).reverse.dropWhile (· ≠ '.') = s.reverse.dropWhile (· ≠ '.') := by
  rw [List.reverse_append, List.dropWhile_append_of_pos]
  intro c hc
  simp only [decide_eq_true_eq]
  rintro rfl
  exact he (List.mem_reverse.1 hc)

theorem splitDot_of_notMem_tail {name : List Char} (h : '.' ∉ name.tail) :
    splitDot name = (name, none) := by
  cases name with
  | nil => rfl
  | cons c rest =>
    have hdrop : (c :: rest).reverse.dropWhile (· ≠ '.') = [c].dropWhile (· ≠ '.') :=
      dropWhile_reverse_append h [c]
    unfold splitDot
    rw [hdrop]
    by_cases hc : c = '.'
    · rw [List.dropWhile_cons_of_neg (by simp [hc])]
    · rw [List.dropWhile_cons_of_pos (by simp [hc])]
      rfl

theorem splitDot_append_dot {s e : List Char} (hs : s ≠ []) (he : '.' ∉ e) :
    splitDot (s ++ '.' :: e) = (s, some e) := by
  have hdrop : (s ++ '.' :: e).reverse.dropWhile (· ≠ '.') = '.' :: s.reverse := by
    rw [List.append_cons, dropWhile_reverse_append he, List.reverse_append]
    rfl
  have htake : (s ++ '.' :: e).reverse.takeWhile (· ≠ '.') = e.reverse := by
    have happend := List.takeWhile_append_dropWhile (p := (· ≠ '.')) (l := (s ++ '.' :: e).reverse)
    rw [hdrop] at happend
    have hreverse : (s ++ '.' :: e).reverse = e.reverse ++ '.' :: s.reverse := by simp
    exact List.append_cancel_right (happend.trans hreverse)
  obtain ⟨c, cs, hcs⟩ := List.exists_cons_of_ne_nil (mt List.reverse_eq_nil_iff.1 hs)
  unfold splitDot
  rw [hdrop, htake, hcs]
  dsimp only
  rw [← hcs, List.reverse_reverse, List.reverse_reverse]

theorem splitDot_cases (name : List Char) :
    ('.' ∉ name.tail ∧ splitDot name = (name, none)) ∨
      ∃ s e, s ≠ [] ∧ '.' ∉ e ∧ name = s ++ '.' :: e ∧ splitDot name = (s, some e) := by
  by_cases h : '.' ∈ name.tail
  · right
    obtain ⟨c, rest, rfl⟩ := List.exists_cons_of_ne_nil (l := name) (by rintro rfl; simp at h)
    -- The last dot behind the first character.
    obtain ⟨after, before, hrest, hafter⟩ := List.eq_append_cons_of_mem (List.mem_reverse.2 h)
    have hname : c :: rest = c :: before.reverse ++ '.' :: after.reverse := by
      rw [List.cons_append, ← List.reverse_reverse rest]
      simpa using congrArg List.reverse hrest
    have hlast : '.' ∉ after.reverse := fun hmem => hafter (List.mem_reverse.1 hmem)
    refine ⟨c :: before.reverse, after.reverse, by simp, hlast, hname, ?_⟩
    rw [hname]
    exact splitDot_append_dot (by simp) hlast
  · exact .inl ⟨h, splitDot_of_notMem_tail h⟩

theorem take_length_sub (front s e tail : List Char) :
    (front ++ (s ++ '.' :: e) ++ tail).take
        ((front ++ (s ++ '.' :: e) ++ tail).length - e.length) =
      front ++ (s ++ '.' :: e.take tail.length) ++ tail.take (tail.length - e.length) := by
  have hsplit : front ++ (s ++ '.' :: e) ++ tail = (front ++ s ++ ['.']) ++ (e ++ tail) := by simp
  have hlength : (front ++ (s ++ '.' :: e) ++ tail).length - e.length =
      (front ++ s ++ ['.']).length + tail.length := by
    simp
    omega
  rw [hlength, hsplit, List.take_length_add_append, List.take_append]
  simp

theorem isName_of_stem {s e e' : List Char} (hname : IsName (s ++ '.' :: e)) (hs : s ≠ [])
    (he : '/' ∉ e') (hparent : s ++ '.' :: e' ≠ ['.', '.']) : IsName (s ++ '.' :: e') where
  noSeparator := by
    have hslash := hname.noSeparator
    simp_all
  ne_nil := by simp
  ne_current := by
    obtain ⟨c, cs, rfl⟩ := List.exists_cons_of_ne_nil hs
    simp
  ne_parent := hparent

theorem setExtension_of_split? {path front name : List Char} (h : split? path = some (front, name))
    (ext : List Char) : setExtension path ext = front ++ stem name ++ dotted ext := by
  rw [setExtension, h]
  rfl

theorem setExtension_of_split?_eq_none {path : List Char} (h : split? path = none)
    (ext : List Char) : setExtension path ext = path := by
  rw [setExtension, h]

theorem split?_parent {front : List Char} (hfront : IsFront front) :
    split? (front ++ ['.', '.']) = none := by
  have hreverse : dropTail (front ++ ['.', '.']).reverse = ['.', '.'].reverse ++ front.reverse := by
    rw [List.reverse_append]
    rfl
  have hdots : '/' ∉ ['.', '.'] := by decide
  have htake := takeWhile_reverse_append hdots hfront
  unfold split?
  simp only [hreverse, htake]
  exact if_pos (.inr (.inr rfl))

/-- Another extension takes the place of all behind the stem of the name. If the stem is a dot, the
dot behind it can remain, and makes it the directory above. -/
theorem withExtension_cases {path front name : List Char}
    (h : split? path = some (front, name)) (ext : List Char) :
    withExtension path ext = front ++ stem name ++ dotted ext ∨
      stem name = ['.'] ∧ withExtension path ext = front ++ ['.', '.'] := by
  obtain ⟨tail, rfl, htail, hname, hfront⟩ := split?_eq_some_iff.1 h
  rcases splitDot_cases name with ⟨-, hdot⟩ | ⟨s, e, hs, he, rfl, hdot⟩
  · left
    rw [withExtension, extension?, fileName?, h]
    simp only [Option.map_some, Option.bind_some, hdot]
    exact setExtension_of_split? h ext
  · have hstem : stem (s ++ '.' :: e) = s := by rw [stem, hdot]
    have hkept : withExtension (front ++ (s ++ '.' :: e) ++ tail) ext =
        setExtension (front ++ (s ++ '.' :: e.take tail.length) ++
          tail.take (tail.length - e.length)) ext := by
      rw [withExtension, extension?, fileName?, h]
      simp only [Option.map_some, Option.bind_some, hdot]
      rw [take_length_sub]
    rw [hkept, hstem]
    by_cases hparent : s ++ '.' :: e.take tail.length = ['.', '.']
    · -- All of the extension has been taken, so that there is no tail.
      right
      obtain ⟨c, cs, rfl⟩ := List.exists_cons_of_ne_nil hs
      have hdots : c = '.' ∧ cs = [] ∧ e.take tail.length = [] := by
        cases cs <;> simp_all
      obtain ⟨rfl, rfl, htake⟩ := hdots
      rcases List.take_eq_nil_iff.1 htake with htail' | rfl
      · rw [List.eq_nil_of_length_eq_zero htail']
        refine ⟨rfl, ?_⟩
        simp only [List.length_nil, List.take_zero, Nat.zero_sub, List.append_nil]
        exact setExtension_of_split?_eq_none (split?_parent hfront) ext
      · exact (hname.ne_parent rfl).elim
    · left
      have hslash : '/' ∉ e.take tail.length := by
        intro hmem
        have hmem' := List.mem_of_mem_take hmem
        exact hname.noSeparator (by simp [hmem'])
      have hlast : '.' ∉ e.take tail.length := fun hmem => he (List.mem_of_mem_take hmem)
      have hname' := isName_of_stem hname hs hslash hparent
      have htail' := htail.take (tail.length - e.length)
      have hsplit := split?_eq_some_iff.2 ⟨_, rfl, htail', hname', hfront⟩
      rw [setExtension_of_split? hsplit, stem, splitDot_append_dot hs hlast]

theorem withExtension_of_split?_eq_none {path : List Char} (h : split? path = none)
    (ext : List Char) : withExtension path ext = path := by
  rw [withExtension, extension?, fileName?, h]
  exact setExtension_of_split?_eq_none h ext

theorem stem_of_isName {name : List Char} (hname : IsName name) :
    '/' ∉ stem name ∧ stem name ≠ [] := by
  have hslash := hname.noSeparator
  rcases splitDot_cases name with ⟨-, hdot⟩ | ⟨s, e, hs, -, rfl, hdot⟩
  · rw [stem, hdot]
    exact ⟨hslash, hname.ne_nil⟩
  · rw [stem, hdot]
    exact ⟨fun hmem => hslash (List.mem_append_left _ hmem), hs⟩

/-- A name is its own stem exactly if it has no dot except in front. -/
theorem stem_eq_self_iff {name : List Char} : stem name = name ↔ '.' ∉ name.tail := by
  rcases splitDot_cases name with ⟨hnone, hdot⟩ | ⟨s, e, hs, -, rfl, hdot⟩
  · simp [stem, hdot, hnone]
  · rw [stem, hdot]
    obtain ⟨c, cs, rfl⟩ := List.exists_cons_of_ne_nil hs
    simp

section withExtension

variable {path front name ext : List Char} (hext : ext ≠ []) (hslash : '/' ∉ ext)
include hext hslash

theorem isName_stem_append (hname : IsName name) : IsName (stem name ++ dotted ext) := by
  obtain ⟨hstem, hne⟩ := stem_of_isName hname
  obtain ⟨c, cs, hcs⟩ := List.exists_cons_of_ne_nil hne
  rw [hcs] at hstem ⊢
  rw [dotted, if_neg hext]
  exact ⟨by simp_all, by simp, by simp, by cases cs <;> simp [hext]⟩

/-- With another extension a path has its name in the same place, if it has one. -/
theorem split?_of_withExtension (h : split? (withExtension path ext) = some (front, name)) :
    ∃ old, split? path = some (front, old) ∧ name = stem old ++ dotted ext := by
  cases hsplit : split? path with
  | none =>
    rw [withExtension_of_split?_eq_none hsplit, hsplit] at h
    cases h
  | some parts =>
    obtain ⟨before, old⟩ := parts
    obtain ⟨-, -, -, hname, hfront⟩ := split?_eq_some_iff.1 hsplit
    rcases withExtension_cases hsplit ext with heq | ⟨-, heq⟩
    · have hnew : split? (before ++ (stem old ++ dotted ext)) =
          some (before, stem old ++ dotted ext) :=
        split?_eq_some_iff.2
          ⟨[], by simp, .nil, isName_stem_append hext hslash hname, hfront⟩
      rw [heq, List.append_assoc, hnew] at h
      cases h
      exact ⟨old, rfl, rfl⟩
    · rw [heq, split?_parent hfront] at h
      cases h

end withExtension

theorem withExtension_of_stem_eq_self {path front name : List Char}
    (h : split? path = some (front, name)) (hstem : stem name = name) (ext : List Char) :
    withExtension path ext = front ++ name ++ dotted ext := by
  obtain ⟨-, -, -, hname, -⟩ := split?_eq_some_iff.1 h
  rcases withExtension_cases h ext with heq | ⟨hdot, -⟩
  · rw [heq, hstem]
  · exact (hname.ne_current (hstem.symm.trans hdot)).elim

end AccumulatorMachine.Path
