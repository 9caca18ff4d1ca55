import MaterialBinding.Proofs.Command.Requests
import MaterialBinding.Proofs.Description.Checked
import MaterialBinding.Proofs.Stage.Invariant

/-!
# What a command line searches

`resolve-all` and `resolve` come to their inputs in different orders: the one reads the purpose
before it opens the scene, the other leaves it to the search.  Either way the scene, the settings
and the purpose must all be there (`Arguments.Gives`), and then a search of one prim is the same
search in both (`runResolveAll_eq_ok_iff`, `runResolve_eq_ok_iff`).

On a prim of the scene a search is refused only if the settings forbid the purpose, so all searches
are refused or none is (`Inputs.answered_or_refused`).
-/

namespace MaterialBinding.Command

variable {files : Files} {line : List String} {arguments : Arguments}

/-! ## What is searched -/

/-- What the searches of a command line work on. -/
structure Inputs where
  stage : Stage
  settings : Settings
  purpose : Purpose

/-- The arguments name these inputs, and all of them can be read. -/
structure Arguments.Gives (arguments : Arguments) (files : Files) (inputs : Inputs) : Prop where
  scene : ∃ file, arguments.positional[0]? = some file ∧
    Stage.openFile files file = .ok inputs.stage
  settings : arguments.loadSettings files = .ok inputs.settings
  purpose : Purpose.ofToken? arguments.purpose = some inputs.purpose

namespace Inputs

variable {inputs : Inputs} {wanted : String} {prim : PrimPath}

/-- The search for the material of one prim. -/
def search (inputs : Inputs) (wanted : String) (prim : PrimPath) :
    Except Error (Option PrimPath) :=
  inputs.stage.resolve inputs.settings prim inputs.purpose wanted

/-- What the search finds if it is not refused. -/
def answer (inputs : Inputs) (wanted : String) (prim : PrimPath) : Option PrimPath :=
  inputs.purpose.passes.findSome? fun purpose => inputs.stage.pass purpose wanted prim

/-- **All searches are answered or all are refused**, as far as they are for prims. -/
theorem answered_or_refused (inputs : Inputs) (wanted : String) :
    (∀ prim : PrimPath, inputs.stage.hasPrim prim = true →
      inputs.search wanted prim = .ok (inputs.answer wanted prim)) ∨
    ∀ prim, ∃ cause, inputs.search wanted prim = .error cause := by
  by_cases hallowed : inputs.settings.allows inputs.purpose = true
  · left
    intro prim hprim
    rw [search, Stage.resolve, hprim, hallowed]
    rfl
  · right
    intro prim
    rw [search, Stage.resolve, Bool.eq_false_iff.mpr hallowed]
    cases inputs.stage.hasPrim prim <;> exact ⟨_, rfl⟩

end Inputs

namespace Arguments.Gives

variable {inputs others : Inputs}

/-- What is listed of a scene that was read is there. -/
theorem hasPrim (hgives : arguments.Gives files inputs) {prim : PrimPath}
    (hmem : prim ∈ inputs.stage.traverse) : inputs.stage.hasPrim prim = true := by
  obtain ⟨file, _, hopen⟩ := hgives.scene
  have hwell := (Stage.Reachable.opened hopen).wellFormed
  exact (Stage.hasPrim_iff_listed hwell).mpr ⟨prim, List.mem_cons_of_mem _ hmem, rfl⟩

/-- The root is there without being listed. -/
theorem hasPrim_of_there (hgives : arguments.Gives files inputs) {prim : PrimPath}
    (hthere : prim ∈ inputs.stage.traverse ∨ prim = .root ∧ inputs.stage.traverse ≠ []) :
    inputs.stage.hasPrim prim = true := by
  rcases hthere with hmem | ⟨rfl, _⟩
  · exact hgives.hasPrim hmem
  · rfl

/-- The arguments name only one scene, one purpose and one file with settings. -/
theorem unique (hgives : arguments.Gives files inputs) (hothers : arguments.Gives files others) :
    inputs = others := by
  obtain ⟨stage, settings, purpose⟩ := inputs
  obtain ⟨⟨file, hfile, hopen⟩, hsettings, hpurpose⟩ := hgives
  obtain ⟨⟨file', hfile', hopen'⟩, hsettings', hpurpose'⟩ := hothers
  obtain rfl : file = file' := by simpa [hfile] using hfile'
  obtain rfl := Except.ok.inj (hopen.symm.trans hopen')
  obtain rfl := Except.ok.inj (hsettings.symm.trans hsettings')
  obtain rfl := Option.some.inj (hpurpose.symm.trans hpurpose')
  rfl

end Arguments.Gives

/-! ## When the parts of a command succeed -/

/-- A required argument is the one at its place. -/
theorem require_eq_ok_iff {index : Nat} {usage value : String} :
    arguments.require index usage = .ok value ↔ arguments.positional[index]? = some value := by
  rw [Arguments.require]
  cases arguments.positional[index]? <;> simp

/-- The scene of a command is the stage that is read from the file. -/
theorem openScene_eq_ok_iff {file : String} {stage : Stage} :
    openScene files file = .ok stage ↔ Stage.openFile files file = .ok stage := by
  rw [openScene]
  cases Stage.openFile files file <;> simp

/-- A command goes on with what an operation gives. -/
theorem orRefuse_eq_ok_iff {α : Type} {result : Except Error α} {value : α} :
    orRefuse result = .ok value ↔ result = .ok value := by
  cases result <;> simp [orRefuse]

/-- A purpose is given by its token. -/
theorem parse_eq_ok_iff {token : String} {purpose : Purpose} :
    Purpose.parse token = .ok purpose ↔ Purpose.ofToken? token = some purpose := by
  rw [Purpose.parse]
  cases Purpose.ofToken? token <;> simp

/-- A search for a token is a search for the purpose that it spells. -/
theorem resolveToken_eq_ok_iff {stage : Stage} {settings : Settings} {prim : ScenePath}
    {token wanted : String} {material : Option PrimPath} :
    stage.resolveToken settings prim token wanted = .ok material ↔
      ∃ purpose, Purpose.ofToken? token = some purpose ∧
        stage.resolve settings prim purpose wanted = .ok material := by
  rw [Stage.resolveToken]
  cases hprim : stage.hasPrim prim with
  | false => simp [Stage.resolve, hprim]
  | true => cases Purpose.ofToken? token <;> simp

/-- The text of a prim is an argument that names this prim. -/
theorem parsePrimPath_text (prim : PrimPath) : parsePrimPath prim.text = .ok prim := by
  have htext : prim.text = (prim : ScenePath).text := by
    simp [ScenePath.text, ScenePath.chars, ScenePath.propertyChars, ScenePath.ofPrim]
  rw [parsePrimPath, htext, ScenePath.parse_text]

/-! ## The two commands -/

/-- The search for all prims gets as far as searching exactly if it has its inputs. -/
theorem runResolveAll_eq_ok_iff {result : List String × Option Error}
    (hparse : Arguments.parse line = .ok arguments) :
    runResolveAll files line = .ok result ↔
      ∃ inputs, arguments.Gives files inputs ∧
        result = materialLines (columnWidth inputs.stage.traverse)
          (inputs.stage.traverse.zip
            (inputs.stage.traverse.map (inputs.search arguments.collection))) := by
  simp only [runResolveAll, hparse, bind_eq_ok, require_eq_ok_iff, openScene_eq_ok_iff,
    orRefuse_eq_ok_iff, parse_eq_ok_iff, Stage.resolveMany, List.map_map]
  constructor
  · rintro ⟨_, hsame, file, hfile, settings, hsettings, purpose, hpurpose, stage, hopen, hresult⟩
    obtain rfl := Except.ok.inj hsame
    exact ⟨⟨stage, settings, purpose⟩, ⟨⟨file, hfile, hopen⟩, hsettings, hpurpose⟩,
      (Except.ok.inj hresult).symm⟩
  · rintro ⟨inputs, ⟨⟨file, hfile, hopen⟩, hsettings, hpurpose⟩, rfl⟩
    exact ⟨arguments, rfl, file, hfile, _, hsettings, _, hpurpose, _, hopen, rfl⟩

/-- The search for one prim makes the same search from the same inputs. -/
theorem runResolve_eq_ok_iff {prim : PrimPath} {lines : List String}
    (hparse : Arguments.parse line = .ok (arguments.about prim.text)) :
    runResolve files line = .ok lines ↔
      ∃ inputs material, arguments.Gives files inputs ∧
        inputs.search arguments.collection prim = .ok material ∧
        lines = [materialText material] := by
  have htarget : ∀ file, arguments.positional[0]? = some file →
      (arguments.about prim.text).positional[1]? = some prim.text := by
    intro file hfile
    refine Arguments.positional_about_one fun hnone => ?_
    rw [hnone] at hfile
    cases hfile
  simp only [runResolve, hparse, bind_eq_ok, require_eq_ok_iff, openScene_eq_ok_iff,
    orRefuse_eq_ok_iff, resolveToken_eq_ok_iff]
  constructor
  · rintro ⟨_, hsame, file, hfile, text, htext, path, hpath, settings, hsettings, stage, hopen,
      material, ⟨purpose, hpurpose, hsearch⟩, hlines⟩
    obtain rfl := Except.ok.inj hsame
    rw [Arguments.positional_about_zero] at hfile
    obtain rfl : prim.text = text := Option.some.inj ((htarget file hfile).symm.trans htext)
    obtain rfl : (prim : ScenePath) = path :=
      Except.ok.inj ((parsePrimPath_text prim).symm.trans hpath)
    exact ⟨⟨stage, settings, purpose⟩, material, ⟨⟨file, hfile, hopen⟩, hsettings, hpurpose⟩,
      hsearch, (Except.ok.inj hlines).symm⟩
  · rintro ⟨inputs, material, ⟨⟨file, hfile, hopen⟩, hsettings, hpurpose⟩, hsearch, rfl⟩
    exact ⟨_, rfl, file, Arguments.positional_about_zero.trans hfile, _, htarget file hfile, _,
      parsePrimPath_text prim, _, hsettings, _, hopen, _, ⟨_, hpurpose, hsearch⟩, rfl⟩

end MaterialBinding.Command
