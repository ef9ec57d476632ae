import AccumulatorMachine.CommandLine.Execute
import AccumulatorMachine.Proofs.FileTrees
import AccumulatorMachine.Proofs.Paths

/-!
# The names of a program's files

The image, the symbol table and the dump of a program should have the program's name, each with its
extension. The extension of the path is taken away first, and what the name has behind its last dot
then is taken for an extension once more. So the files have the program's name exactly if that has
no dot except in front, and is not a dot alone.
-/

namespace AccumulatorMachine

namespace Path

theorem components_ne_nil (cs : List Char) : components cs ≠ [] := by
  fun_cases components cs <;> simp_all

theorem components_append_separator (p t : List Char) :
    components (p ++ '/' :: t) = components p ++ components t := by
  induction p with
  | nil => simp [components]
  | cons c p ih =>
    obtain ⟨first, rest, hfirst⟩ := List.exists_cons_of_ne_nil (components_ne_nil p)
    by_cases hc : c = '/'
    · simp [components, hc, ih]
    · simp [components, hc, ih, hfirst]

theorem Tail.components {t : List Char} (h : Tail t) :
    ∃ rest, components t = [] :: rest ∧ ∀ c ∈ rest, c = [] ∨ c = ['.'] := by
  induction h with
  | nil => exact ⟨[], rfl, by simp⟩
  | separator _ ih =>
    obtain ⟨rest, ht, hrest⟩ := ih
    refine ⟨[] :: rest, by simp [Path.components, ht], ?_⟩
    simpa using hrest
  | current _ ih =>
    obtain ⟨rest, ht, hrest⟩ := ih
    refine ⟨['.'] :: rest, by simp [Path.components, ht], ?_⟩
    simpa using hrest

end Path

namespace FileTree

variable {t : FileTree}

def Stays (cs : List String) : Prop := ∀ c ∈ cs, c = "" ∨ c = "."

theorem follow_of_stays {cs : List String} (h : Stays cs) (spot : Spot) :
    t.follow spot cs = .ok (.directory spot) := by
  induction cs with
  | nil => rfl
  | cons c cs ih =>
    unfold follow
    rw [if_pos (h c (List.mem_cons_self ..))]
    exact ih fun c hc => h c (List.mem_cons_of_mem _ hc)

theorem follow_append_ne_file {rest : List String} (hne : rest ≠ []) (hrest : Stays rest)
    (cs : List String) (spot : Spot) (content : List UInt8) :
    t.follow spot (cs ++ rest) ≠ .ok (.file content) := by
  induction cs generalizing spot with
  | nil =>
    rw [List.nil_append, follow_of_stays hrest]
    simp
  | cons c cs ih =>
    rw [List.cons_append]
    unfold follow
    split
    next => exact ih spot
    next =>
      split
      next => exact ih _
      next =>
        split
        next => simp
        next =>
          split
          next => simp
          next =>
            split
            next => simp
            next => exact ih _
            next =>
              rw [if_neg (by simp [hne])]
              simp

theorem exists_route_of_isFile {path : String} (h : t.isFile path = true) :
    ∃ start content, t.follow start (components path) = .ok (.file content) := by
  unfold isFile openFile at h
  cases hroute : route path with
  | error e => simp [hroute, bind, Except.bind] at h
  | ok parts =>
    obtain ⟨start, cs⟩ := parts
    obtain ⟨-, hcs⟩ := of_route_eq_ok hroute
    cases hfollow : t.follow start cs with
    | error e => simp [hroute, hfollow, bind, Except.bind] at h
    | ok found =>
      cases found with
      | directory spot => simp [hroute, hfollow, bind, Except.bind, pure, Except.pure] at h
      | file content => exact ⟨start, content, hcs ▸ hfollow⟩

/-- A path that leads to a file ends with its name. -/
theorem eq_append_of_isFile {path : String} {front name : List Char}
    (h : Path.split? path.toList = some (front, name)) (hfile : t.isFile path = true) :
    path.toList = front ++ name := by
  obtain ⟨tail, hpath, htail, -, -⟩ := Path.split?_eq_some_iff.1 h
  cases tail with
  | nil => rwa [List.append_nil] at hpath
  | cons c u =>
    exfalso
    obtain ⟨start, content, hfollow⟩ := exists_route_of_isFile hfile
    obtain ⟨rest, hu, hrest⟩ := htail.components
    obtain rfl : c = '/' := by cases htail <;> rfl
    have hrest' : Path.components u = rest := by simpa [Path.components] using hu
    have hcomponents : components path =
        (Path.components (front ++ name)).map String.ofList ++ rest.map String.ofList := by
      rw [components, hpath, Path.components_append_separator, hrest', List.map_append]
    have hstays : Stays (rest.map String.ofList) := by
      intro c hc
      obtain ⟨c, hmem, rfl⟩ := List.mem_map.1 hc
      rcases hrest c hmem with rfl | rfl
      · exact .inl rfl
      · exact .inr rfl
    have hne : rest.map String.ofList ≠ [] := by
      rw [← hrest']
      simpa using Path.components_ne_nil u
    rw [hcomponents] at hfollow
    exact follow_append_ne_file hne hstays _ start content hfollow

end FileTree

namespace Path

/-- The stem of a name has no dot except in front, and is not a dot alone. -/
def HasPlainStem (name : List Char) : Prop := stem name ≠ ['.'] ∧ '.' ∉ (stem name).tail

variable {path front name : List Char} (h : split? path = some (front, name))
include h

theorem eq_stem_of_split? {old : List Char}
    (hold : split? (withExtension path []) = some (front, old)) : old = stem name := by
  obtain ⟨-, -, -, hname, hfront⟩ := split?_eq_some_iff.1 h
  rcases withExtension_cases h [] with heq | ⟨-, heq⟩
  · obtain ⟨tail, hpath, htail, -, -⟩ := split?_eq_some_iff.1 hold
    rw [heq, dotted, if_pos rfl, List.append_nil, List.append_assoc] at hpath
    have hstem := List.append_cancel_left hpath
    cases htail with
    | nil => rw [hstem, List.append_nil]
    | separator => exact ((stem_of_isName hname).1 (by simp [hstem])).elim
    | current => exact ((stem_of_isName hname).1 (by simp [hstem])).elim
  · rw [heq, split?_parent hfront] at hold
    cases hold

theorem eq_stem_append {ext : List Char} (hext : extension? path = some ext) :
    name = stem name ++ '.' :: ext := by
  rw [extension?, fileName?, h] at hext
  simp only [Option.map_some, Option.bind_some] at hext
  rcases splitDot_cases name with ⟨-, hdot⟩ | ⟨s, e, -, -, hname, hdot⟩
  · rw [hdot] at hext
    cases hext
  · rw [hdot] at hext
    cases hext
    rw [stem, hdot]
    exact hname

/-- The path without its extension has the stem for its name, and that is its own stem, exactly if
the stem is plain. -/
theorem split?_stem_iff :
    split? (withExtension path []) = some (front, stem name) ∧ stem (stem name) = stem name ↔
      HasPlainStem name := by
  obtain ⟨-, -, -, hname, hfront⟩ := split?_eq_some_iff.1 h
  rw [stem_eq_self_iff, HasPlainStem, and_congr_left_iff]
  intro hdots
  constructor
  · intro hsplit
    obtain ⟨-, -, -, hstem, -⟩ := split?_eq_some_iff.1 hsplit
    exact hstem.ne_current
  · intro hdot
    obtain ⟨hslash, hne⟩ := stem_of_isName hname
    have hparent : stem name ≠ ['.', '.'] := fun hparent => by simp [hparent] at hdots
    have hstem : IsName (stem name) := ⟨hslash, hne, hdot, hparent⟩
    rcases withExtension_cases h [] with heq | ⟨hbad, -⟩
    · rw [heq]
      exact split?_eq_some_iff.2 ⟨[], by simp [dotted], .nil, hstem, hfront⟩
    · exact (hdot hbad).elim

end Path

namespace Companions

open AccumulatorMachine.Path (split? extension? fileName? dotted HasPlainStem)

section

variable {path : String} {front name ext : List Char}
  (h : split? path.toList = some (front, name)) (hne : ext ≠ []) (hslash : '/' ∉ ext)
include h hne hslash

/-- A companion has the program's name exactly if the stem of the path is plain. -/
theorem split?_withExtension_iff :
    split? ((ofPath path).withExtension ext).toList =
        some (front, (ofPath path).name.toList ++ '.' :: ext) ↔ HasPlainStem name := by
  rw [← Path.split?_stem_iff h, withExtension, Companions.name, ofPath, String.toList_ofList,
    String.toList_ofList, fileName?]
  have hdotted : '.' :: ext = dotted ext := by rw [dotted, if_neg hne]
  constructor
  · intro hsplit
    obtain ⟨old, hold, hname⟩ := Path.split?_of_withExtension hne hslash hsplit
    obtain rfl := Path.eq_stem_of_split? h hold
    rw [hold, hdotted] at hname
    exact ⟨hold, (List.append_cancel_right hname).symm⟩
  · rintro ⟨hstem, hself⟩
    obtain ⟨-, -, -, hname, hfront⟩ := Path.split?_eq_some_iff.1 hstem
    rw [Path.withExtension_of_stem_eq_self hstem hself, hstem, hdotted, List.append_assoc]
    have hnew := Path.isName_stem_append hne hslash hname
    rw [hself] at hnew
    exact Path.split?_eq_some_iff.2 ⟨[], by simp, .nil, hnew, hfront⟩

theorem split?_withExtension_eq_iff (hext : extension? path.toList = some ext) :
    split? ((ofPath path).withExtension ext).toList = split? path.toList ↔ HasPlainStem name := by
  have hname := Path.eq_stem_append h hext
  have hdotted : '.' :: ext = dotted ext := by rw [dotted, if_neg hne]
  constructor
  · intro hsplit
    rw [h, withExtension, ofPath, String.toList_ofList] at hsplit
    obtain ⟨old, hold, hkept⟩ := Path.split?_of_withExtension hne hslash hsplit
    obtain rfl := Path.eq_stem_of_split? h hold
    rw [← hdotted] at hkept
    have hself := List.append_cancel_right (hname.symm.trans hkept)
    exact (Path.split?_stem_iff h).1 ⟨hold, hself.symm⟩
  · intro hplain
    have hstem := ((Path.split?_stem_iff h).2 hplain).1
    rw [(split?_withExtension_iff h hne hslash).2 hplain, h, Companions.name, ofPath,
      String.toList_ofList, fileName?, hstem]
    simpa using hname.symm

/-- A file is its own companion with its extension exactly if its stem is plain. -/
theorem withExtension_eq_self_iff (hext : extension? path.toList = some ext) {tree : FileTree}
    (hfile : tree.isFile path = true) :
    (ofPath path).withExtension ext = path ↔ HasPlainStem name := by
  rw [← split?_withExtension_eq_iff h hne hslash hext]
  refine ⟨fun heq => by rw [heq], fun hsplit => ?_⟩
  have hplain := (split?_withExtension_eq_iff h hne hslash hext).1 hsplit
  obtain ⟨hstem, hself⟩ := (Path.split?_stem_iff h).2 hplain
  have hpath : path.toList = front ++ name := FileTree.eq_append_of_isFile h hfile
  have hname := Path.eq_stem_append h hext
  rw [withExtension, ofPath, Path.withExtension_of_stem_eq_self hstem hself, dotted, if_neg hne,
    List.append_assoc, ← hname, ← hpath, String.ofList_toList]

end

/-- The image, the symbol table and the dump of a program are in the directory of its path, and each
has the program's name and its extension, exactly if the stem of the path's name has no dot except
in front and is not a dot alone. The image of a path with the extension of images is at that path
under the same condition, and then it is the file there, if there is one. -/
theorem keep_name_iff {path : String} {front name : List Char}
    (h : split? path.toList = some (front, name)) :
    (split? (ofPath path).image.toList =
        some (front, (ofPath path).name.toList ++ ['.', 'm', 'e', 'x']) ↔ HasPlainStem name) ∧
    (split? (ofPath path).symbolTable.toList =
        some (front, (ofPath path).name.toList ++ ['.', 'm', 'a', 'p']) ↔ HasPlainStem name) ∧
    (split? (ofPath path).dump.toList =
        some (front, (ofPath path).name.toList ++ ['.', 'd', 'm', 'p']) ↔ HasPlainStem name) ∧
    (extension? path.toList = some ['m', 'e', 'x'] →
      (split? (ofPath path).image.toList = split? path.toList ↔ HasPlainStem name) ∧
      ∀ tree : FileTree, tree.isFile path = true →
        ((ofPath path).image = path ↔ HasPlainStem name)) := by
  refine ⟨split?_withExtension_iff h (by simp) (by decide),
    split?_withExtension_iff h (by simp) (by decide),
    split?_withExtension_iff h (by simp) (by decide), fun hext => ⟨?_, ?_⟩⟩
  · exact split?_withExtension_eq_iff h (by simp) (by decide) hext
  · intro tree hfile
    exact withExtension_eq_self_iff h (by simp) (by decide) hext hfile

def shelf (name : String) : FileTree :=
  ⟨[(["shelf"], .directory), (["shelf", name], .file [])]⟩

/-- A dot in front of a name is kept. -/
theorem keep_name_iff_hidden :
    split? "shelf/.loop.mex".toList = some ("shelf/".toList, ".loop.mex".toList) ∧
    HasPlainStem ".loop.mex".toList ∧ (shelf ".loop.mex").isFile "shelf/.loop.mex" = true ∧
    (ofPath "shelf/.loop.mex").image = "shelf/.loop.mex" ∧
    split? (ofPath "shelf/.loop.mex").dump.toList =
      some ("shelf/".toList, (ofPath "shelf/.loop.mex").name.toList ++ ".dmp".toList) := by
  have hsplit : split? "shelf/.loop.mex".toList = some ("shelf/".toList, ".loop.mex".toList) := by
    decide
  have hplain : HasPlainStem ".loop.mex".toList := by
    unfold HasPlainStem
    decide
  have hfile : (shelf ".loop.mex").isFile "shelf/.loop.mex" = true := by decide +kernel
  obtain ⟨-, -, hdump, himage⟩ := keep_name_iff hsplit
  exact ⟨hsplit, hplain, hfile, ((himage (by decide)).2 _ hfile).2 hplain, hdump.2 hplain⟩

/-- Of a name with two dots the image, the symbol table and the dump keep the part before the first
one. The file named is not read, and another one can be in its place. -/
theorem dotted_name_lost :
    (extension? "shelf/loop.v2.mex".toList = some "mex".toList ∧
      (ofPath "shelf/loop.v2.mex").name = "loop.v2" ∧
      (ofPath "shelf/loop.v2.mex").image = "shelf/loop.mex" ∧
      (ofPath "shelf/loop.v2.mex").symbolTable = "shelf/loop.map" ∧
      (ofPath "shelf/loop.v2.mex").dump = "shelf/loop.dmp") ∧
    (shelf "loop.v2.mex").isFile "shelf/loop.v2.mex" = true ∧
    (CommandLine.execute 1 (.list "shelf/loop.v2.mex") [] (shelf "loop.v2.mex")).1 =
      ⟨1, "", "Failed to load shelf/loop.mex: cannot read shelf/loop.mex: " ++
        FileError.notFound.message ++ "\n"⟩ := by
  decide +kernel

end Companions

end AccumulatorMachine
