import MaterialBinding.Command.Run
import MaterialBinding.Proofs.Path.Text

/-!
# What a command line asks for

A command line names a command and gives it arguments.  `request?` is as much of this as can be told
without a file: the command, and its arguments taken apart or the reason why they cannot be.

A command line for all prims becomes one for a single prim if the command is exchanged and the path
of the prim comes behind the scene (`AsksAbout`).  Where the path is written in between the options
does not matter, and it is never mistaken for an option (`asksAbout_insert`).
-/

namespace MaterialBinding.Command

variable {before after : List String} {value : String}

namespace Arguments

variable {arguments parsed : Arguments} {argument : String} {option : OptionName}
  {rest : List String}

/-! ## One argument after the other -/

/-- An option at the end lacks its value. -/
theorem parseFrom_lone (hoption : OptionName.ofSpelling? argument = some option) :
    parseFrom arguments [argument] = .error (.missingValue argument) := by
  simp [parseFrom, hoption]

/-- An option takes the next argument for its value. -/
theorem parseFrom_option (hoption : OptionName.ofSpelling? argument = some option) :
    parseFrom arguments (argument :: value :: rest) =
      parseFrom (arguments.set option value) rest := by
  simp [parseFrom, hoption]

/-- What looks like an option and is none is refused. -/
theorem parseFrom_unknown (hoption : OptionName.ofSpelling? argument = none)
    (hlooks : looksLikeOption argument = true) :
    parseFrom arguments (argument :: rest) = .error (.unknownOption argument) := by
  simp [parseFrom, hoption, hlooks]

/-- Any other argument is kept as it is. -/
theorem parseFrom_plain (hoption : OptionName.ofSpelling? argument = none)
    (hlooks : looksLikeOption argument = false) :
    parseFrom arguments (argument :: rest) = parseFrom (arguments.push argument) rest := by
  simp [parseFrom, hoption, hlooks]

/-- What follows arguments that were taken apart is taken apart from there on. -/
theorem parseFrom_append (hbefore : parseFrom arguments before = .ok parsed) :
    parseFrom arguments (before ++ after) = parseFrom parsed after := by
  induction arguments, before using parseFrom.induct with
  | case1 arguments =>
      obtain rfl := Except.ok.inj hbefore
      rfl
  | case2 arguments argument option hoption =>
      rw [parseFrom_lone hoption] at hbefore
      cases hbefore
  | case3 arguments argument option value rest hoption ih =>
      rw [parseFrom_option hoption] at hbefore
      exact (parseFrom_option hoption).trans (ih hbefore)
  | case4 arguments argument rest hoption hlooks =>
      rw [parseFrom_unknown hoption hlooks] at hbefore
      cases hbefore
  | case5 arguments argument rest hoption hlooks ih =>
      have hplain := Bool.eq_false_iff.mpr hlooks
      rw [parseFrom_plain hoption hplain] at hbefore
      exact (parseFrom_plain hoption hplain).trans (ih hbefore)

/-! ## One more positional argument -/

/-- The arguments with one more positional argument, right behind the first. -/
def about (arguments : Arguments) (value : String) : Arguments :=
  { arguments with positional := arguments.positional.insertIdx 1 value }

/-- An option may be set before or after the path is put in. -/
theorem set_about (option : OptionName) (other : String) :
    (arguments.about value).set option other = (arguments.set option other).about value := by
  cases option <;> rfl

/-- Behind the scene, an argument may be added before or after the path is put in. -/
theorem push_about (hscene : arguments.positional ≠ []) (other : String) :
    (arguments.about value).push other = (arguments.push other).about value := by
  obtain ⟨scene, others, hpositional⟩ := List.exists_cons_of_ne_nil hscene
  simp [about, push, hpositional]

/-- The path is put in behind the scene. -/
theorem positional_about_zero :
    (arguments.about value).positional[0]? = arguments.positional[0]? := by
  cases hpositional : arguments.positional <;> simp [about, hpositional]

/-- The path that was put in is the second argument. -/
theorem positional_about_one (hscene : arguments.positional ≠ []) :
    (arguments.about value).positional[1]? = some value := by
  obtain ⟨scene, others, hpositional⟩ := List.exists_cons_of_ne_nil hscene
  simp [about, hpositional]

/-- Behind the first positional argument another one makes no difference to what follows. -/
theorem parseFrom_about (hscene : arguments.positional ≠ []) :
    parseFrom (arguments.about value) after = (parseFrom arguments after).map (·.about value) := by
  induction arguments, after using parseFrom.induct with
  | case1 arguments => rfl
  | case2 arguments argument option hoption =>
      rw [parseFrom_lone hoption, parseFrom_lone hoption]
      rfl
  | case3 arguments argument option other rest hoption ih =>
      have hset : (arguments.set option other).positional ≠ [] := by cases option <;> exact hscene
      rw [parseFrom_option hoption, parseFrom_option hoption, set_about]
      exact ih hset
  | case4 arguments argument rest hoption hlooks =>
      rw [parseFrom_unknown hoption hlooks, parseFrom_unknown hoption hlooks]
      rfl
  | case5 arguments argument rest hoption hlooks ih =>
      have hplain := Bool.eq_false_iff.mpr hlooks
      rw [parseFrom_plain hoption hplain, parseFrom_plain hoption hplain, push_about hscene]
      exact ih (by simp [push])

/-- An argument that is no option may be written anywhere behind the first positional one. -/
theorem parse_insert (hbefore : parse before = .ok parsed) (hscene : parsed.positional.length = 1)
    (hoption : OptionName.ofSpelling? value = none) (hlooks : looksLikeOption value = false) :
    parse (before ++ value :: after) = (parse (before ++ after)).map (·.about value) := by
  obtain ⟨scene, hpositional⟩ := List.length_eq_one_iff.mp hscene
  have hpush : parsed.push value = parsed.about value := by simp [push, about, hpositional]
  have hrest : parsed.positional ≠ [] := by simp [hpositional]
  rw [parse, parse, parseFrom_append hbefore, parseFrom_append hbefore,
    parseFrom_plain hoption hlooks, hpush, parseFrom_about hrest]

/-- Arguments with a scene can be cut behind it. -/
theorem exists_cut {line : List String} (hnone : arguments.positional = [])
    (hline : parseFrom arguments line = .ok parsed) (hsome : parsed.positional ≠ []) :
    ∃ before after scene, line = before ++ after ∧ parseFrom arguments before = .ok scene ∧
      scene.positional.length = 1 := by
  induction arguments, line using parseFrom.induct with
  | case1 arguments =>
      obtain rfl := Except.ok.inj hline
      exact absurd hnone hsome
  | case2 arguments argument option hoption =>
      rw [parseFrom_lone hoption] at hline
      cases hline
  | case3 arguments argument option value rest hoption ih =>
      have hset : (arguments.set option value).positional = [] := by cases option <;> exact hnone
      rw [parseFrom_option hoption] at hline
      obtain ⟨before, after, scene, rfl, hbefore, hscene⟩ := ih hset hline
      exact ⟨argument :: value :: before, after, scene, rfl,
        (parseFrom_option hoption).trans hbefore, hscene⟩
  | case4 arguments argument rest hoption hlooks =>
      rw [parseFrom_unknown hoption hlooks] at hline
      cases hline
  | case5 arguments argument rest hoption hlooks ih =>
      refine ⟨[argument], rest, arguments.push argument, rfl, ?_, by simp [push, hnone]⟩
      rw [parseFrom_plain hoption (Bool.eq_false_iff.mpr hlooks)]
      rfl

end Arguments

/-- The command that a command line names, with its arguments taken apart. -/
def request? (commandLine : List String) : Option (Name × Except Failure Arguments) :=
  match commandLine.filter (· ∉ verbosityFlags) with
  | [] => none
  | spelling :: arguments =>
    (Name.ofSpelling? spelling).map fun name => (name, Arguments.parse arguments)

/-- A command line that begins with the name of a command asks for this one. -/
theorem request?_cons {spelling : String} {name : Name} (hflag : spelling ∉ verbosityFlags)
    (hname : Name.ofSpelling? spelling = some name) (arguments : List String) :
    request? (spelling :: arguments) =
      some (name, Arguments.parse (arguments.filter (· ∉ verbosityFlags))) := by
  rw [request?, List.filter_cons_of_pos (by simpa using hflag)]
  simp only [hname, Option.map_some]

/-- Running a command line runs the command that it names, on its arguments without the flags. -/
theorem exists_run_of_request? {commandLine : List String} {name : Name}
    {parsed : Except Failure Arguments} (hrequest : request? commandLine = some (name, parsed)) :
    ∃ arguments, (∀ argument ∈ arguments, argument ∉ verbosityFlags) ∧
      Arguments.parse arguments = parsed ∧
      ∀ files, run files commandLine = name.run files arguments := by
  rw [request?] at hrequest
  cases hfilter : commandLine.filter (· ∉ verbosityFlags) with
  | nil =>
    rw [hfilter] at hrequest
    cases hrequest
  | cons spelling arguments =>
    rw [hfilter] at hrequest
    obtain ⟨found, hname, hpair⟩ := Option.map_eq_some_iff.mp hrequest
    obtain ⟨rfl, rfl⟩ := Prod.mk.inj hpair
    refine ⟨arguments, ?_, rfl, fun files => by simp only [run, hfilter, hname]⟩
    intro argument hmem
    have hkept : argument ∈ commandLine.filter (· ∉ verbosityFlags) :=
      hfilter ▸ List.mem_cons_of_mem _ hmem
    simpa using (List.mem_filter.mp hkept).2

/-- One command line asks for the materials of all prims, the other for that of one prim, with the
same scene and the same options. -/
def AsksAbout (prim : PrimPath) (all one : List String) : Prop :=
  ∃ parsed, request? all = some (.resolveAll, parsed) ∧
    request? one = some (.resolve, parsed.map (·.about prim.text))

/-! ## A path among the arguments

A path begins with a slash, which neither an option nor a flag does. -/

/-- The text of a prim begins with a slash. -/
theorem head?_text (prim : PrimPath) : prim.text.toList.head? = some '/' := by
  cases prim with
  | root => rfl
  | child above name =>
      obtain ⟨first, rest, hchars⟩ := PrimPath.chars_child above name
      rw [PrimPath.text_child, String.toList_ofList, hchars]
      rfl

section Slash

variable (hslash : value.toList.head? = some '/')

include hslash

/-- No option begins with a slash. -/
theorem ofSpelling?_of_slash : OptionName.ofSpelling? value = none := by
  have hne : ∀ other : String, other.toList.head? ≠ some '/' → value ≠ other := by
    rintro other hother rfl
    exact hother hslash
  simp [OptionName.ofSpelling?, hne "--purpose" (by decide), hne "-p" (by decide),
    hne "--collection" (by decide), hne "-c" (by decide), hne "--settings" (by decide),
    hne "-s" (by decide)]

/-- What begins with a slash does not look like an option. -/
theorem looksLikeOption_of_slash : looksLikeOption value = false := by
  cases hchars : value.toList with
  | nil =>
      rw [hchars] at hslash
      cases hslash
  | cons first rest =>
      rw [hchars] at hslash
      obtain rfl := Option.some.inj hslash
      rw [looksLikeOption, hchars]
      rfl

/-- No flag begins with a slash. -/
theorem not_mem_verbosityFlags_of_slash : value ∉ verbosityFlags := by
  have hhyphen : ∀ flag ∈ verbosityFlags, flag.toList.head? ≠ some '/' := by decide
  exact fun hmem => hhyphen value hmem hslash

end Slash

/-- **The path of a prim may be written anywhere behind the scene.**  Flags and options may stand
around it. -/
theorem asksAbout_insert {scene : Arguments} (prim : PrimPath)
    (hbefore : Arguments.parse (before.filter (· ∉ verbosityFlags)) = .ok scene)
    (hscene : scene.positional.length = 1) (after : List String) :
    AsksAbout prim ("resolve-all" :: (before ++ after))
      ("resolve" :: (before ++ prim.text :: after)) := by
  have hslash := head?_text prim
  have hkept : prim.text ∉ verbosityFlags := not_mem_verbosityFlags_of_slash hslash
  have hresolve : Name.ofSpelling? "resolve" = some .resolve := by decide
  refine ⟨_, request?_cons (by decide) (by decide) _, ?_⟩
  rw [request?_cons (by decide) hresolve, List.filter_append, List.filter_append,
    List.filter_cons_of_pos (by simpa using hkept),
    Arguments.parse_insert hbefore hscene (ofSpelling?_of_slash hslash)
      (looksLikeOption_of_slash hslash)]

/-- So whoever asks for all prims of a scene can ask for each prim alone. -/
theorem exists_asksAbout {all : List String} {arguments : Arguments} (prim : PrimPath)
    (hall : request? all = some (.resolveAll, .ok arguments))
    (hscene : arguments.positional ≠ []) : ∃ one, AsksAbout prim all one := by
  obtain ⟨line, hflags, hparse, _⟩ := exists_run_of_request? hall
  obtain ⟨before, after, scene, rfl, hbefore, hlength⟩ := Arguments.exists_cut rfl hparse hscene
  have hkept : ∀ part, part ⊆ before ++ after → part.filter (· ∉ verbosityFlags) = part := by
    intro part hpart
    exact List.filter_eq_self.mpr fun argument hmem => by simpa using hflags _ (hpart hmem)
  have hbefore' := hkept before (List.subset_append_left ..)
  obtain ⟨parsed, hplain, hone⟩ := asksAbout_insert prim (hbefore'.symm ▸ hbefore) hlength after
  have hresolveAll : Name.ofSpelling? "resolve-all" = some .resolveAll := by decide
  rw [request?_cons (by decide) hresolveAll, hkept _ (List.Subset.refl _), hparse] at hplain
  obtain rfl : Except.ok arguments = parsed := by simpa using hplain
  exact ⟨_, _, hall, hone⟩

end MaterialBinding.Command
