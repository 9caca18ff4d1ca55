import Mathlib.Data.List.Forall2
import MaterialBinding.Proofs.Command.Inputs
import MaterialBinding.Proofs.Command.Printed

/-!
# All prims at once, and one at a time

A run for all prims either prints nothing or a line for each prim (`RunsAll`): its searches are all
answered or all refused, so it never prints some of its lines and then fails.

The line of a prim ends with what a run prints that asks for this prim alone (`IsLineOf`), and as
long as the scene has a prim the two kinds of runs succeed and fail together
(`AsksAbout.exit_all`, `AsksAbout.exit_all_ne_zero`).
-/

namespace MaterialBinding.Command

variable {files : Files} {arguments : Arguments}

/-! ## The lines -/

section Lines

variable {width : Nat} {prims : List PrimPath}
  {search : PrimPath → Except Error (Option PrimPath)} {answer : PrimPath → Option PrimPath}

/-- If no search is refused, there is a line for each prim. -/
theorem materialLines_of_ok (hok : ∀ prim ∈ prims, search prim = .ok (answer prim)) :
    materialLines width (prims.zip (prims.map search)) =
      (prims.map fun prim => materialLine width prim (answer prim), none) := by
  induction prims with
  | nil => rfl
  | cons prim prims ih =>
      obtain ⟨hfirst, hothers⟩ := List.forall_mem_cons.mp hok
      have hrest := ih hothers
      rw [List.map_cons, List.zip_cons_cons, hfirst, materialLines, hrest]
      rfl

/-- If the first search is refused, there is no line at all. -/
theorem materialLines_of_error {prim : PrimPath} {cause : Error}
    (herror : search prim = .error cause) :
    materialLines width ((prim :: prims).zip ((prim :: prims).map search)) = ([], some cause) := by
  rw [List.map_cons, List.zip_cons_cons, herror, materialLines]

end Lines

/-- No path contains the end of a line. -/
theorem newline_not_mem_text (prim : PrimPath) : '\n' ∉ prim.text.toList :=
  prim.not_mem_text (by decide) (by decide)

/-- So the line of a prim is one line. -/
theorem newline_not_mem_materialLine (width : Nat) (prim : PrimPath)
    (material : Option PrimPath) : '\n' ∉ (materialLine width prim material).toList := by
  have hmaterial : '\n' ∉ (materialText material).toList := by
    cases material with
    | none => decide
    | some path => exact newline_not_mem_text path
  simp [materialLine, padRight, newline_not_mem_text, hmaterial]

/-! ## Runs -/

/-- The scene that a command line names is read, and this is its stage. -/
def OpensScene (files : Files) (commandLine : List String) (stage : Stage) : Prop :=
  ∃ name arguments file, request? commandLine = some (name, .ok arguments) ∧
    arguments.positional[0]? = some file ∧ Stage.openFile files file = .ok stage

/-- The text says what the search for a prim finds: the path of a material, or that there is
none. -/
def Inputs.Finds (inputs : Inputs) (wanted : String) (prim : PrimPath) (found : String) : Prop :=
  (found = "<none>" ∧ inputs.search wanted prim = .ok none) ∨
    ∃ material : PrimPath, found = material.text ∧ inputs.search wanted prim = .ok (some material)

/-- A line that `all` prints belongs to a prim: it is the path of the prim, blanks, and the one line
that any command line prints which asks for this prim alone.  There are such command lines, and
what they print is what the search for the prim finds. -/
structure IsLineOf (files : Files) (all : List String) (prim : PrimPath) (line : String) :
    Prop where
  one_line : '\n' ∉ line.toList
  asked : ∃ one, AsksAbout prim all one
  parts : ∃ blanks found, 2 ≤ blanks ∧
    line = prim.text ++ String.ofList (List.replicate blanks ' ') ++ found ∧
    (∃ arguments inputs, request? all = some (.resolveAll, .ok arguments) ∧
      arguments.Gives files inputs ∧ inputs.Finds arguments.collection prim found) ∧
    ∀ one, AsksAbout prim all one → (run files one).Prints [found]

section Runs

variable {all one : List String} {parsed : Except Failure Arguments} {inputs : Inputs}
  {prim : PrimPath} {material : Option PrimPath}

/-- How a run for all prims ends.  What it prints is all or nothing. -/
inductive RunsAll (files : Files) (all : List String) (parsed : Except Failure Arguments) : Prop
  /-- Its inputs are not all there. -/
  | unread (failure : Failure)
      (hnot : ¬ ∃ arguments inputs, parsed = .ok arguments ∧ arguments.Gives files inputs)
      (hrun : run files all = .failure [] failure)
  /-- All searches are answered. -/
  | answered {arguments : Arguments} {inputs : Inputs} (hparsed : parsed = .ok arguments)
      (hgives : arguments.Gives files inputs)
      (hanswered : ∀ prim : PrimPath, inputs.stage.hasPrim prim = true →
        inputs.search arguments.collection prim =
          .ok (inputs.answer arguments.collection prim))
      (hrun : run files all = .success (inputs.stage.traverse.map fun prim =>
        materialLine (columnWidth inputs.stage.traverse) prim
          (inputs.answer arguments.collection prim)))
  /-- All searches are refused, beginning with the first. -/
  | refused (cause : Error) {arguments : Arguments} {inputs : Inputs}
      (hparsed : parsed = .ok arguments) (hgives : arguments.Gives files inputs)
      (hrefused : ∀ prim, ∃ cause, inputs.search arguments.collection prim = .error cause)
      (hrun : run files all = .failure [] (.refused cause))
  /-- All searches would be refused, but there is no prim to search. -/
  | empty {arguments : Arguments} {inputs : Inputs} (hparsed : parsed = .ok arguments)
      (hgives : arguments.Gives files inputs)
      (hrefused : ∀ prim, ∃ cause, inputs.search arguments.collection prim = .error cause)
      (hempty : inputs.stage.traverse = []) (hrun : run files all = .success [])

/-- A command line for all prims runs that command on its arguments. -/
theorem runsAll (files : Files) (hall : request? all = some (.resolveAll, parsed)) :
    RunsAll files all parsed := by
  obtain ⟨line, _, hparse, hrun⟩ := exists_run_of_request? hall
  by_cases hinputs : ∃ arguments inputs, parsed = .ok arguments ∧ arguments.Gives files inputs
  · obtain ⟨arguments, inputs, rfl, hgives⟩ := hinputs
    have hlines := (runResolveAll_eq_ok_iff hparse).mpr ⟨inputs, hgives, rfl⟩
    rcases inputs.answered_or_refused arguments.collection with hanswered | hrefused
    · have hlisted : ∀ prim ∈ inputs.stage.traverse,
          inputs.search arguments.collection prim =
            .ok (inputs.answer arguments.collection prim) :=
        fun prim hmem => hanswered prim (hgives.hasPrim hmem)
      rw [materialLines_of_ok hlisted] at hlines
      refine .answered rfl hgives hanswered ?_
      rw [hrun, Name.run, hlines]
    · cases hlisted : inputs.stage.traverse with
      | nil =>
          rw [hlisted] at hlines
          refine .empty rfl hgives hrefused hlisted ?_
          rw [hrun, Name.run, hlines]
          rfl
      | cons first rest =>
          obtain ⟨cause, hfirst⟩ := hrefused first
          rw [hlisted, materialLines_of_error hfirst] at hlines
          refine .refused cause rfl hgives hrefused ?_
          rw [hrun, Name.run, hlines]
  · cases hresult : runResolveAll files line with
    | error failure =>
        refine .unread failure hinputs ?_
        rw [hrun, Name.run, hresult]
    | ok result =>
        cases parsed with
        | error failure =>
            rw [runResolveAll, hparse] at hresult
            cases hresult
        | ok arguments =>
            obtain ⟨inputs, hgives, _⟩ := (runResolveAll_eq_ok_iff hparse).mp hresult
            exact absurd ⟨arguments, inputs, rfl, hgives⟩ hinputs

/-- A command line that names its inputs opens the scene of these. -/
theorem opensScene_of_gives (hall : request? all = some (.resolveAll, .ok arguments))
    (hgives : arguments.Gives files inputs) : OpensScene files all inputs.stage := by
  obtain ⟨file, hfile, hopen⟩ := hgives.scene
  exact ⟨_, arguments, file, hall, hfile, hopen⟩

namespace AsksAbout

/-- The run for one prim prints what its search finds. -/
theorem run_of_search (hasks : AsksAbout prim all one)
    (hall : request? all = some (.resolveAll, .ok arguments))
    (hgives : arguments.Gives files inputs)
    (hsearch : inputs.search arguments.collection prim = .ok material) :
    run files one = .success [materialText material] := by
  obtain ⟨parsed, hall', hone⟩ := hasks
  obtain rfl : Except.ok arguments = parsed := by simpa [hall] using hall'
  obtain ⟨line, _, hparse, hrun⟩ := exists_run_of_request? hone
  rw [hrun, Name.run, (runResolve_eq_ok_iff hparse).mpr ⟨inputs, material, hgives, hsearch, rfl⟩]
  rfl

/-- A run for one prim that succeeds has made a search. -/
theorem exists_search (hasks : AsksAbout prim all one)
    (hall : request? all = some (.resolveAll, parsed)) (hexit : (run files one).exit = 0) :
    ∃ arguments inputs material, parsed = .ok arguments ∧ arguments.Gives files inputs ∧
      inputs.search arguments.collection prim = .ok material := by
  obtain ⟨_, hall', hone⟩ := hasks
  obtain rfl : parsed = _ := by simpa [hall] using hall'
  obtain ⟨line, _, hparse, hrun⟩ := exists_run_of_request? hone
  rw [hrun, Name.run] at hexit
  cases hresult : runResolve files line with
  | error failure =>
      rw [hresult] at hexit
      cases hexit
  | ok lines =>
      cases parsed with
      | error failure =>
          rw [runResolve, hparse] at hresult
          cases hresult
      | ok arguments =>
          obtain ⟨inputs, material, hgives, hsearch, _⟩ :=
            (runResolve_eq_ok_iff hparse).mp hresult
          exact ⟨arguments, inputs, material, rfl, hgives, hsearch⟩

/-- Where no search is answered, no run for one prim succeeds. -/
theorem exit_ne_zero_of_refused (hasks : AsksAbout prim all one)
    (hall : request? all = some (.resolveAll, .ok arguments))
    (hgives : arguments.Gives files inputs)
    (hrefused : ∀ prim, ∃ cause, inputs.search arguments.collection prim = .error cause) :
    (run files one).exit ≠ 0 := by
  intro hexit
  obtain ⟨_, others, material, hsame, hothers, hsearch⟩ := hasks.exists_search hall hexit
  obtain rfl := Except.ok.inj hsame
  obtain ⟨cause, hcause⟩ := hrefused prim
  rw [hgives.unique hothers, hsearch] at hcause
  cases hcause

/-- A run for one prim succeeds only where the run for all does. -/
theorem exit_all (hasks : AsksAbout prim all one)
    (hall : request? all = some (.resolveAll, parsed)) (hexit : (run files one).exit = 0) :
    (run files all).exit = 0 := by
  cases runsAll files hall with
  | unread failure hnot hrun =>
      obtain ⟨arguments, inputs, _, hparsed, hgives, _⟩ := hasks.exists_search hall hexit
      exact absurd ⟨arguments, inputs, hparsed, hgives⟩ hnot
  | answered hparsed hgives hanswered hrun =>
      rw [hrun]
      rfl
  | refused cause hparsed hgives hrefused hrun =>
      exact absurd hexit (hasks.exit_ne_zero_of_refused (hparsed ▸ hall) hgives hrefused)
  | empty hparsed hgives hrefused hempty hrun =>
      rw [hrun]
      rfl

/-- A run for one prim of the scene fails only where the run for all does, which then prints
nothing. -/
theorem exit_all_ne_zero (hasks : AsksAbout prim all one)
    (hall : request? all = some (.resolveAll, parsed))
    (hthere : ∀ stage, OpensScene files all stage →
      prim ∈ stage.traverse ∨ prim = .root ∧ stage.traverse ≠ [])
    (hfails : (run files one).exit ≠ 0) :
    (run files all).exit ≠ 0 ∧ (run files all).out = "" := by
  cases runsAll files hall with
  | unread failure hnot hrun =>
      rw [hrun]
      exact ⟨nofun, rfl⟩
  | answered hparsed hgives hanswered hrun =>
      obtain rfl := hparsed
      have hprim := hgives.hasPrim_of_there (hthere _ (opensScene_of_gives hall hgives))
      rw [hasks.run_of_search hall hgives (hanswered prim hprim)] at hfails
      exact absurd rfl hfails
  | refused cause hparsed hgives hrefused hrun =>
      rw [hrun]
      exact ⟨nofun, rfl⟩
  | empty hparsed hgives hrefused hempty hrun =>
      obtain rfl := hparsed
      rcases hthere _ (opensScene_of_gives hall hgives) with hmem | ⟨_, hsome⟩
      · exact absurd hempty (List.ne_nil_of_mem hmem)
      · exact absurd hempty hsome

end AsksAbout

/-- The text of a material says what was found. -/
theorem finds_materialText {wanted : String} (hsearch : inputs.search wanted prim = .ok material) :
    inputs.Finds wanted prim (materialText material) := by
  cases material with
  | none => exact Or.inl ⟨rfl, hsearch⟩
  | some path => exact Or.inr ⟨path, rfl, hsearch⟩

/-- The line of a prim whose search is answered. -/
theorem isLineOf_materialLine (hall : request? all = some (.resolveAll, .ok arguments))
    (hgives : arguments.Gives files inputs)
    (hsearch : inputs.search arguments.collection prim = .ok material) (width : Nat) :
    IsLineOf files all prim (materialLine width prim material) where
  one_line := newline_not_mem_materialLine width prim material
  asked := by
    obtain ⟨file, hfile, _⟩ := hgives.scene
    refine exists_asksAbout prim hall fun hnone => ?_
    rw [hnone] at hfile
    cases hfile
  parts := by
    refine ⟨width - prim.text.length + 2, materialText material, by omega, ?_,
      ⟨arguments, inputs, hall, hgives, finds_materialText hsearch⟩, fun one hasks => ?_⟩
    · simp [materialLine, padRight, List.replicate_add, String.ofList_append, String.append_assoc]
    · exact Outcome.prints_iff.mpr (hasks.run_of_search hall hgives hsearch)

/-- A run for all prims that succeeds prints a line for each of them. -/
theorem exists_lines (hall : request? all = some (.resolveAll, parsed))
    (hexit : (run files all).exit = 0) :
    ∃ stage lines, OpensScene files all stage ∧ (run files all).Prints lines ∧
      List.Forall₂ (IsLineOf files all) stage.traverse lines := by
  cases runsAll files hall with
  | unread failure hnot hrun =>
      rw [hrun] at hexit
      cases hexit
  | answered hparsed hgives hanswered hrun =>
      obtain rfl := hparsed
      refine ⟨_, _, opensScene_of_gives hall hgives, Outcome.prints_iff.mpr hrun, ?_⟩
      rw [List.forall₂_map_right_iff, List.forall₂_same]
      intro prim hmem
      exact isLineOf_materialLine hall hgives (hanswered prim (hgives.hasPrim hmem)) _
  | refused cause hparsed hgives hrefused hrun =>
      rw [hrun] at hexit
      cases hexit
  | empty hparsed hgives hrefused hempty hrun =>
      obtain rfl := hparsed
      exact ⟨_, [], opensScene_of_gives hall hgives, Outcome.prints_iff.mpr hrun, hempty ▸ .nil⟩

/-- **`resolve-all` agrees with `resolve`.**  Let a command line ask for the materials of all prims.

* If its run succeeds, it prints one line for each prim that the traversal of the scene lists, in
  this order, and nothing else.  The line is the path, blanks, and the one line that a run prints
  which asks for this prim alone and which then succeeds too: `<none>` or the path of a material, as
  the search finds it.
* If a run succeeds that asks for one prim alone, this run succeeds.
* If a run fails that asks for one prim of the scene alone, this run fails too and prints nothing.
  It may be the root that is asked for, if there are prims below it; and if the scene cannot be
  read, it may be any path. -/
theorem resolveAll_agrees_with_resolve (files : Files)
    (hall : request? all = some (.resolveAll, parsed)) :
    ((run files all).exit = 0 →
      ∃ stage lines, OpensScene files all stage ∧ (run files all).Prints lines ∧
        List.Forall₂ (IsLineOf files all) stage.traverse lines) ∧
    ∀ prim one, AsksAbout prim all one →
      ((run files one).exit = 0 → (run files all).exit = 0) ∧
      ((∀ stage, OpensScene files all stage →
          prim ∈ stage.traverse ∨ prim = .root ∧ stage.traverse ≠ []) →
        (run files one).exit ≠ 0 → (run files all).exit ≠ 0 ∧ (run files all).out = "") := by
  refine ⟨exists_lines hall, fun prim one hasks => ⟨?_, ?_⟩⟩
  · exact hasks.exit_all hall
  · exact hasks.exit_all_ne_zero hall

end Runs

/-- A shop with a teapot of clay, and settings for drafts. -/
def shopFiles : Files := fun file =>
  if file = "shop.json" then
    .found "/shop.json" <| some <|
      "\x7b\"prims\": [\x7b\"name\": \"Teapot\", \"relationships\": " ++
        "[\x7b\"name\": \"material:binding\", \"targets\": [\"/Clay\"]\x7d]\x7d, " ++
        "\x7b\"name\": \"Clay\"\x7d]\x7d"
  else if file = "draft.json" then
    .found "/draft.json" (some "\x7b\"allowedPurposes\": [\"preview\"]\x7d")
  else .missing

/-- All of the shop can be searched, and the teapot is of clay.  In a draft nobody may ask for full
quality, neither for the teapot alone nor for all. -/
theorem shop_agrees :
    let all := ["resolve-all", "shop.json"]
    let draft := ["resolve-all", "shop.json", "-s", "draft.json", "-p", "full"]
    (∃ stage lines, OpensScene shopFiles all stage ∧ (run shopFiles all).Prints lines ∧
      List.Forall₂ (IsLineOf shopFiles all) stage.traverse lines) ∧
    (run shopFiles all).out = "/Teapot  /Clay\n/Clay    <none>\n" ∧
    (run shopFiles draft).exit ≠ 0 ∧ (run shopFiles draft).out = "" := by
  intro all draft
  refine ⟨?_, by decide +kernel, ?_⟩
  · have hall : request? all = some (.resolveAll, .ok { positional := ["shop.json"] }) := by decide
    have hexit : (run shopFiles all).exit = 0 := by decide +kernel
    exact (resolveAll_agrees_with_resolve shopFiles hall).1 hexit
  · let teapot : PrimPath := .child .root ⟨"Teapot", by decide⟩
    let clay : PrimPath := .child .root ⟨"Clay", by decide⟩
    let one := ["resolve", "shop.json", teapot.text, "-s", "draft.json", "-p", "full"]
    let options : Arguments :=
      { positional := ["shop.json"], purpose := "full", settings := some "draft.json" }
    have hall : request? draft = some (.resolveAll, .ok options) := by decide
    have hscene : Arguments.parse (["shop.json"].filter (· ∉ verbosityFlags)) =
        .ok { positional := ["shop.json"] } := by decide
    have hasks : AsksAbout teapot draft one :=
      asksAbout_insert teapot hscene rfl ["-s", "draft.json", "-p", "full"]
    have hfails : (run shopFiles one).exit ≠ 0 := by decide +kernel
    have hlisted : (Stage.openFile shopFiles "shop.json").map Stage.traverse =
        .ok [teapot, clay] := by decide +kernel
    refine ((resolveAll_agrees_with_resolve shopFiles hall).2 teapot one hasks).2 ?_ hfails
    rintro stage ⟨name, arguments, file, hrequest, hfile, hopen⟩
    rw [hall] at hrequest
    cases hrequest
    cases hfile
    rw [hopen] at hlisted
    exact .inl (Except.ok.inj hlisted ▸ List.mem_cons_self ..)

end MaterialBinding.Command
