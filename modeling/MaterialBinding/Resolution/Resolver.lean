import MaterialBinding.Binding.Basic
import MaterialBinding.Resolution.Settings

/-!
# Which material renders a prim

The search for the material of a prim goes up from the prim to the root, once for the purpose and,
if nothing is found, once more for the bindings that hold for every purpose.

One pass is a list of events (`passEvents`).  Each prim on the way up contributes its direct
binding, present or not, and then the collection bindings of the nearest prim at or above it that
has relationships so named, as far as the prim is a member and the collection has the wanted name.
The search for that owner looks at names only, so bindings that turn out to be useless still end
it.

The events are settled from the nearest to the farthest (`settle`): a material that was found
stays until a strong binding replaces it, even by nothing.
-/

namespace MaterialBinding

/-- One binding met on the way up. -/
structure BindingEvent where
  /-- The binding overrides those met before. -/
  strong : Bool
  /-- The material that it gives. -/
  material : Option PrimPath
deriving DecidableEq

/-- A weak event counts only if nothing was found yet; a strong one always does. -/
def BindingEvent.settle (found : Option PrimPath) (event : BindingEvent) : Option PrimPath :=
  if found.isNone || event.strong then event.material else found

namespace Stage

/-- The prim has relationships that are named as collection bindings. -/
def ownsCollectionBindings (stage : Stage) (purpose : Purpose) (path : PrimPath) : Bool :=
  !(stage.collectionRelationships path purpose).isEmpty

/-- The collection bindings of the nearest prim at or above the path that has relationships with
such names. -/
def nearestCollectionBindings (stage : Stage) (path : PrimPath) (purpose : Purpose) :
    List CollectionBinding :=
  match path.ancestors.find? (stage.ownsCollectionBindings purpose) with
  | some owner => stage.collectionBindings owner purpose
  | none => []

/-- The direct binding of one prim as an event. -/
def directEvent (stage : Stage) (purpose : Purpose) (path : PrimPath) : BindingEvent where
  strong := (stage.directStrength path purpose).isStronger
  material := stage.directMaterial? path purpose

/-- The collection bindings that reach one prim; an empty `wanted` means collections of any name. -/
def collectionEvents (stage : Stage) (purpose : Purpose) (wanted : String) (path : PrimPath) :
    List BindingEvent :=
  ((stage.nearestCollectionBindings path purpose).filter fun binding =>
    (wanted == "" || binding.collectionName == wanted) && binding.isMember stage path).map
    fun binding => ⟨binding.strength.isStronger, binding.material? stage⟩

/-- The events of one pass, from the prim up. -/
def passEvents (stage : Stage) (purpose : Purpose) (wanted : String) (path : PrimPath) :
    List BindingEvent :=
  path.ancestors.flatMap fun above =>
    stage.directEvent purpose above :: stage.collectionEvents purpose wanted above

/-- What one pass finds. -/
def pass (stage : Stage) (purpose : Purpose) (wanted : String) (path : PrimPath) :
    Option PrimPath :=
  (stage.passEvents purpose wanted path).foldl BindingEvent.settle none

/-- The material of a prim for a purpose.  A nonempty `wanted` admits collection bindings only of
collections with that name. -/
def resolve (stage : Stage) (settings : Settings) (prim : ScenePath) (purpose : Purpose)
    (wanted : String) : Except Error (Option PrimPath) :=
  if !stage.hasPrim prim then .error (.invalidPrim prim)
  else if !settings.allows purpose then .error (.invalidPurpose purpose.token settings.allowed)
  else .ok (purpose.passes.findSome? fun purpose => stage.pass purpose wanted prim.prim)

/-- The material of a prim for a purpose given by its token. -/
def resolveToken (stage : Stage) (settings : Settings) (prim : ScenePath) (token wanted : String) :
    Except Error (Option PrimPath) :=
  if !stage.hasPrim prim then .error (.invalidPrim prim)
  else
    match Purpose.ofToken? token with
    | none => .error (.invalidPurpose token settings.allowed)
    | some purpose => stage.resolve settings prim purpose wanted

/-- The material of each prim of a list. -/
def resolveMany (stage : Stage) (settings : Settings) (prims : List ScenePath) (purpose : Purpose)
    (wanted : String) : List (Except Error (Option PrimPath)) :=
  prims.map fun prim => stage.resolve settings prim purpose wanted

end Stage

end MaterialBinding
