import MaterialBinding.Files.Cache
import MaterialBinding.Files.Tree
import Mathlib.Data.List.Basic
import Mathlib.Tactic.SplitIfs

/-!
# When two paths are equal

Two paths of files are equal if they have the same parts: repeated slashes, a slash at the end and
single dots do not count, except for a dot at the start of a relative path (`pathParts`).  The key
under which a cache remembers a file says just this much about a path (`fileKey_eq_iff`).

A canonical path leads from the root through entries of directories (`IsCanonical`), as every
path does that a file tree gives as canonical (`FileTree.isCanonical_canonicalOf`).  Canonical
paths that are equal are so letter by letter (`IsCanonical.eq_of_pathParts`).
-/

namespace MaterialBinding

/-! ## Parts -/

/-- One part of the path of a file. -/
inductive PathPart where
  /-- The root, at the start of an absolute path. -/
  | root
  /-- The directory at hand, where a relative path says so at its start. -/
  | here
  /-- The directory above. -/
  | above
  /-- An entry of a directory. -/
  | entry (name : String)
deriving DecidableEq

namespace PathPart

/-- The part that stands between two slashes; nothing and a dot are none. -/
def ofName? : String → Option PathPart
  | "" | "." => none
  | ".." => some .above
  | name => some (.entry name)

/-- What stands for a part in the key of a file. -/
def text : PathPart → String
  | root => "/"
  | here => "."
  | above => ".."
  | entry name => name

/-- The part that a text stands for in the key of a file. -/
def ofText : String → PathPart
  | "/" => .root
  | "." => .here
  | ".." => .above
  | name => .entry name

/-- Different texts stand for different parts. -/
theorem text_ofText (name : String) : (ofText name).text = name := by
  rw [ofText.eq_def]
  split <;> rfl

/-- What stands between two slashes is a part unless it leads nowhere. -/
theorem ofName?_eq {name : String} (hslash : '/' ∉ name.toList) :
    ofName? name = if name ≠ "" && name ≠ "." then some (ofText name) else none := by
  have hroot : name ≠ "/" := by
    rintro rfl
    exact hslash (by decide)
  rw [ofName?.eq_def, ofText.eq_def]
  split <;> simp_all

end PathPart

/-- The parts of a path. -/
def pathParts (path : String) : List PathPart :=
  let names := FileTree.namesOf path
  let start : List PathPart :=
    if FileTree.isAbsolute path then [.root] else if names.head? = some "." then [.here] else []
  start ++ names.filterMap PathPart.ofName?

example : pathParts "/room//./lamp.json/" = [.root, .entry "room", .entry "lamp.json"] := by decide

example : pathParts "./a/../." = [.here, .entry "a", .above] := by decide

/-- What stands between two marks has no mark. -/
theorem not_mem_of_mem_splitOn {letters word : List Char} {mark : Char}
    (hword : word ∈ letters.splitOn mark) : mark ∉ word := by
  induction letters generalizing word with
  | nil =>
      rw [List.splitOn_nil, List.mem_singleton] at hword
      rw [hword]
      exact List.not_mem_nil
  | cons letter rest ih =>
      rw [List.splitOn_cons_eq_if_modifyHead] at hword
      split_ifs at hword with hmark
      · obtain rfl | hrest := List.mem_cons.mp hword
        · exact List.not_mem_nil
        · exact ih hrest
      · obtain ⟨first, others, hsplit⟩ := List.exists_cons_of_ne_nil (List.splitOn_ne_nil mark rest)
        rw [hsplit] at ih hword
        obtain rfl | hothers := List.mem_cons.mp hword
        · rw [List.mem_cons, not_or]
          exact ⟨fun heq => hmark (beq_iff_eq.mpr heq.symm), ih (List.mem_cons_self ..)⟩
        · exact ih (List.mem_cons_of_mem _ hothers)

namespace FileTree

/-- No name in a path has a slash. -/
theorem slash_not_mem_of_namesOf {path name : String} (hname : name ∈ namesOf path) :
    '/' ∉ name.toList := by
  obtain ⟨letters, hletters, rfl⟩ := List.mem_map.mp hname
  rw [String.toList_ofList]
  exact not_mem_of_mem_splitOn hletters

end FileTree

/-- The key of a file says what the parts of its path are. -/
theorem pathParts_eq_map (path : String) : pathParts path = (fileKey path).map PathPart.ofText := by
  have hparts : ∀ names : List String, (∀ name ∈ names, '/' ∉ name.toList) →
      names.filterMap PathPart.ofName? =
        (names.filter fun name => name ≠ "" && name ≠ ".").map PathPart.ofText := by
    intro names hslash
    rw [← List.filterMap_eq_map, List.filterMap_filter]
    exact List.filterMap_congr fun name hname => PathPart.ofName?_eq (hslash name hname)
  have hnames := hparts (FileTree.namesOf path) fun _ => FileTree.slash_not_mem_of_namesOf
  rw [pathParts, fileKey, ← FileTree.namesOf, hnames]
  by_cases habsolute : path.toList.head? = some '/'
  · rw [FileTree.isAbsolute, if_pos (decide_eq_true habsolute), if_pos habsolute]
    rfl
  · rw [FileTree.isAbsolute, if_neg (mt of_decide_eq_true habsolute), if_neg habsolute]
    by_cases hdot : (FileTree.namesOf path).head? = some "."
    · rw [if_pos hdot, if_pos hdot]
      rfl
    · rw [if_neg hdot, if_neg hdot]
      rfl

/-- **When a cache takes two paths for one**: exactly if they have the same parts. -/
theorem fileKey_eq_iff {path other : String} :
    fileKey path = fileKey other ↔ pathParts path = pathParts other := by
  have htext : ∀ path, (pathParts path).map PathPart.text = fileKey path := by
    intro path
    rw [pathParts_eq_map, List.map_map]
    exact (List.map_congr_left fun name _ => PathPart.text_ofText name).trans (List.map_id _)
  constructor
  · intro hkey
    rw [pathParts_eq_map, hkey, ← pathParts_eq_map]
  · intro hparts
    rw [← htext path, hparts, htext other]

/-! ## Canonical paths -/

/-- The name leads from a directory to one of its entries. -/
def IsEntry (name : String) : Prop :=
  name ≠ "" ∧ name ≠ "." ∧ name ≠ ".." ∧ '/' ∉ name.toList

/-- The path leads from the root through entries of directories, each slash is followed by a name,
and it is written with nothing else. -/
def IsCanonical (path : String) : Prop :=
  ∃ place : List String, (∀ name ∈ place, IsEntry name) ∧ path = FileTree.pathOf place

/-- The name of an entry stands for this entry. -/
theorem PathPart.ofName?_of_isEntry {name : String} (hname : IsEntry name) :
    ofName? name = some (.entry name) := by
  obtain ⟨hempty, hdot, hdots, _⟩ := hname
  rw [ofName?.eq_def]
  split <;> first | rfl | contradiction

/-- The parts of a canonical path are the root and the entries on the way. -/
theorem pathParts_pathOf {place : List String} (hplace : ∀ name ∈ place, IsEntry name) :
    pathParts (FileTree.pathOf place) = .root :: place.map .entry := by
  have hletters : (FileTree.pathOf place).toList =
      '/' :: ['/'].intercalate (place.map String.toList) := by
    rw [FileTree.pathOf, String.toList_append, String.toList_intercalate]
    rfl
  have hentries : place.filterMap PathPart.ofName? = place.map .entry := by
    rw [← List.filterMap_eq_map]
    exact List.filterMap_congr fun name hname => PathPart.ofName?_of_isEntry (hplace name hname)
  have hnames : (FileTree.namesOf (FileTree.pathOf place)).filterMap PathPart.ofName? =
      place.map .entry := by
    rw [FileTree.namesOf, hletters, ← List.nil_append ('/' :: _), List.splitOn_append_cons_self]
    cases place with
    | nil => rfl
    | cons first rest =>
        have hslash : ∀ letters ∈ (first :: rest).map String.toList, '/' ∉ letters := by
          intro letters hmem
          obtain ⟨name, hname, rfl⟩ := List.mem_map.mp hmem
          exact (hplace name hname).2.2.2
        have hback : String.ofList ∘ String.toList = id := funext fun _ => String.ofList_toList
        rw [List.splitOn_intercalate '/' hslash nofun, List.map_append, List.map_map, hback,
          List.map_id, List.filterMap_append, hentries]
        rfl
  have habsolute : FileTree.isAbsolute (FileTree.pathOf place) = true := by
    rw [FileTree.isAbsolute, hletters]
    rfl
  rw [pathParts, hnames, if_pos habsolute]
  rfl

/-- **Canonical paths that are equal are the same text.** -/
theorem IsCanonical.eq_of_pathParts {path other : String} (hpath : IsCanonical path)
    (hother : IsCanonical other) (hparts : pathParts path = pathParts other) : path = other := by
  obtain ⟨place, hplace, rfl⟩ := hpath
  obtain ⟨otherPlace, hotherPlace, rfl⟩ := hother
  rw [pathParts_pathOf hplace, pathParts_pathOf hotherPlace] at hparts
  have hentries : place.map PathPart.entry = otherPlace.map PathPart.entry :=
    (List.cons.inj hparts).2
  have hplaces : place = otherPlace :=
    List.map_injective_iff.mpr (fun _ _ => PathPart.entry.inj) hentries
  rw [hplaces]

/-- Where a path leads to: its canonical path, or the path itself if it leads nowhere. -/
def Files.canonicalOf (files : Files) (file : String) : String :=
  match files file with
  | .found canonical _ | .outOfReach canonical => canonical
  | .missing => file

/-- A cache looks for a file under the key of its canonical path. -/
theorem Cache.keyOf_eq (files : Files) (file : String) :
    keyOf files file = fileKey (files.canonicalOf file) := by
  rw [keyOf, Files.canonicalOf]
  cases files file <;> rfl

namespace FileTree

variable {tree : FileTree} {place found : List String}

/-- Following names leads through entries of directories only. -/
theorem isEntry_of_follow? {making : Bool} {links : Nat} {names : List String}
    (hplace : ∀ name ∈ place, IsEntry name) (hnames : ∀ name ∈ names, '/' ∉ name.toList)
    (hfollow : tree.follow? making links place names = some found) :
    ∀ name ∈ found, IsEntry name := by
  have hstep : ∀ {place : List String} {name : String}, (∀ name ∈ place, IsEntry name) →
      ¬ (decide (name = "") || decide (name = ".")) = true → name ≠ ".." → '/' ∉ name.toList →
      ∀ other ∈ place ++ [name], IsEntry other := by
    intro place name hplace htelling hdots hslash other hother
    obtain hother | hother := List.mem_append.mp hother
    · exact hplace other hother
    · obtain rfl := List.mem_singleton.mp hother
      simp only [Bool.or_eq_true, decide_eq_true_eq, not_or] at htelling
      exact ⟨htelling.1, htelling.2, hdots, hslash⟩
  fun_induction tree.follow? making links place names with
  | case1 links place =>
      obtain rfl := Option.some.inj hfollow
      exact hplace
  | case2 | case6 | case7 => cases hfollow
  | case3 links place name names _ _ ih =>
      exact ih hplace (fun other hother => hnames other (List.mem_cons_of_mem _ hother)) hfollow
  | case4 links place names _ _ ih =>
      exact ih (fun other hother => hplace other (List.dropLast_subset _ hother))
        (fun other hother => hnames other (List.mem_cons_of_mem _ hother)) hfollow
  | case5 links place name names _ htelling hdots _ _ =>
      obtain rfl := Option.some.inj hfollow
      exact hstep hplace htelling hdots (hnames name (List.mem_cons_self ..))
  | case8 place name names _ _ _ target links _ ih =>
      refine ih ?_ (fun other hother => ?_) hfollow
      · split
        · exact nofun
        · exact hplace
      · obtain htarget | hnext := List.mem_append.mp hother
        · exact slash_not_mem_of_namesOf htarget
        · exact hnames other (List.mem_cons_of_mem _ hnext)
  | case9 place name names _ htelling hdots _ links _ _ _ ih =>
      exact ih (hstep hplace htelling hdots (hnames name (List.mem_cons_self ..)))
        (fun other hother => hnames other (List.mem_cons_of_mem _ hother)) hfollow

/-- The canonical path of a path that leads somewhere is that of the place. -/
theorem canonicalOf_files {file : String} (hplace : tree.resolve? file = some place) :
    tree.files.canonicalOf file = pathOf place := by
  by_cases hlong : file.utf8ByteSize > pathLimit
  · simp only [Files.canonicalOf, files, hplace, if_pos hlong]
  · simp only [Files.canonicalOf, files, hplace, if_neg hlong]
    cases tree.entry? place with
    | none => rfl
    | some entry => cases entry <;> rfl

/-- **A file tree gives canonical paths**, if paths start from a directory that has one. -/
theorem isCanonical_canonicalOf {file : String}
    (hstart : ∀ name ∈ tree.workingDirectory, IsEntry name)
    (hfound : tree.files file ≠ .missing) : IsCanonical (tree.files.canonicalOf file) := by
  cases hplace : tree.resolve? file with
  | none =>
      have hmissing : tree.files file = .missing := by rw [files, hplace]
      exact absurd hmissing hfound
  | some place =>
      have hcanonical : tree.files.canonicalOf file = pathOf place := canonicalOf_files hplace
      have hfrom : ∀ name ∈ tree.startOf file, IsEntry name := by
        rw [startOf]
        split_ifs with habsolute
        · exact nofun
        · exact hstart
      rw [resolve?] at hplace
      split_ifs at hplace with hempty
      have hentries : ∀ name ∈ place, IsEntry name :=
        isEntry_of_follow? hfrom (fun _ => slash_not_mem_of_namesOf) hplace
      exact ⟨place, hentries, hcanonical⟩

end FileTree

end MaterialBinding
