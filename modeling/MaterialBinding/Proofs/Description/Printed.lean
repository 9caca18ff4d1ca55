import MaterialBinding.Description.Json
import MaterialBinding.Proofs.Description.ByKey
import MaterialBinding.Proofs.Json.ReadBack

/-!
# Printed descriptions are read back

The page that a description is printed as is read back as that description, if its brackets fit
into the limit, and counts as malformed text if they do not.  `Description.nesting` says how many
brackets are open at once.  Each further level of prims takes two of them, one for the list of
children and one for the child itself.

The metadata of a relationship must ascend by key, since a reader sorts it.
-/

namespace MaterialBinding

open Json

/-! ## How deep the brackets go -/

/-- The greatest of the numbers, or zero. -/
def deepest (numbers : List Nat) : Nat := numbers.foldr max 0

/-- The deepest of several is within the limit if all are. -/
theorem deepest_le_iff {numbers : List Nat} {limit : Nat} :
    deepest numbers ≤ limit ↔ ∀ n ∈ numbers, n ≤ limit := by
  induction numbers with
  | nil => simp [deepest]
  | cons n numbers ih =>
      have hcons : deepest (n :: numbers) = max n (deepest numbers) := rfl
      rw [hcons, Nat.max_le, ih, List.forall_mem_cons]

/-- The brackets of a collection that are open at once. -/
def CollectionDescription.nesting (description : CollectionDescription) : Nat :=
  if description.includes.isEmpty && description.excludes.isEmpty then 1 else 2

/-- The brackets open at once inside of a prim, its children apart.  A relationship stands in a
list and has a list of targets. -/
def PrimDescription.nesting (prim : PrimDescription) : Nat :=
  max (if prim.relationships.isEmpty then 0 else 3)
    (deepest (prim.collections.map fun collection => 1 + collection.nesting))

namespace Description

/-- The brackets open at once in the list that prims are printed as; without prims there is no
list. -/
def nesting : Description → Nat
  | nil => 0
  | cons prim children rest => max (2 + max prim.nesting children.nesting) rest.nesting

/-- Prims side by side, each with its children. -/
def toList : Description → List (PrimDescription × Description)
  | nil => []
  | cons prim children rest => (prim, children) :: rest.toList

/-- The metadata ascends by key in every relationship. -/
def Arranged : Description → Prop
  | nil => True
  | cons prim children rest =>
    (∀ relationship ∈ prim.relationships, Ascending relationship.metadata) ∧
      children.Arranged ∧ rest.Arranged

variable {description : Description}

/-- A description is put together again from its prims. -/
theorem ofList_toList : ofList description.toList = description := by
  induction description with
  | nil => rfl
  | cons prim children rest _ ih => rw [toList, ofList, ih]

/-- The prims of a description are printed one by one. -/
theorem printers_eq_map :
    description.printers = description.toList.map fun one => primPrinter one.1 one.2.printers := by
  induction description with
  | nil => rfl
  | cons prim children rest _ ih => rw [printers, toList, List.map_cons, ih]

/-- A description fits into the limit if each of its prims does, with its two brackets. -/
theorem nesting_le_iff {limit : Nat} :
    description.nesting ≤ limit ↔
      ∀ one ∈ description.toList, 2 + max one.1.nesting one.2.nesting ≤ limit := by
  induction description with
  | nil => simp [nesting, toList]
  | cons prim children rest _ ih => rw [nesting, Nat.max_le, ih, toList, List.forall_mem_cons]

/-- The prims of an arranged description are arranged. -/
theorem Arranged.of_mem (h : description.Arranged) {one : PrimDescription × Description}
    (hmem : one ∈ description.toList) :
    (∀ relationship ∈ one.1.relationships, Ascending relationship.metadata) ∧
      one.2.Arranged := by
  induction description with
  | nil => exact absurd hmem nofun
  | cons prim children rest _ ih =>
      obtain ⟨hprim, hchildren, hrest⟩ := h
      rcases List.mem_cons.mp hmem with rfl | hmem
      · exact ⟨hprim, hchildren⟩
      · exact ih hrest hmem

end Description

/-! ## Relationships and collections -/

namespace RelationshipDescription

/-- The members that a relationship is printed with. -/
def members (limit : Nat) (description : RelationshipDescription) :
    List (PrintedField RelationshipDescription) :=
  [⟨"name", .string description.name, True, fun record => { record with name := description.name }⟩,
    ⟨"targets", .list (description.targets.map .string), limit ≠ 0,
      fun record => { record with targets := description.targets }⟩] ++
  description.bindMaterialAs.toList.map (fun token => ⟨"bindMaterialAs", .string token, True,
    fun record => { record with bindMaterialAs := some token }⟩) ++
  (if description.metadata.isEmpty then []
    else [⟨"metadata", .object (description.metadata.map fun pair => (pair.1, .string pair.2)),
      limit ≠ 0, fun record => { record with metadata := sortByKey description.metadata }⟩])

variable {description : RelationshipDescription}

theorem printer_eq_members (limit : Nat) :
    description.printer =
      .object ((description.members limit).map fun member => (member.name, member.printer)) := by
  rw [printer, members]
  cases description.bindMaterialAs <;> cases description.metadata <;> rfl

theorem isOf_fields (limit : Nat) :
    ∀ member ∈ description.members limit, member.IsOf (fields limit) := by
  refine List.forall_mem_append.mpr ⟨List.forall_mem_append.mpr ⟨?_, ?_⟩, ?_⟩
  · refine List.forall_mem_cons.mpr ⟨?_, List.forall_mem_singleton.mpr ?_⟩
    · exact ⟨_, rfl, fun _ => (readsBack_string description.name).refine _⟩
    · exact ⟨_, rfl, fun _ => (readsBack_strings limit description.targets).refine _⟩
  · intro member hmem
    obtain ⟨token, _, rfl⟩ := List.mem_map.mp hmem
    exact ⟨_, rfl, fun _ => (readsBack_someString token).refine _⟩
  · split
    · nofun
    · refine List.forall_mem_singleton.mpr ?_
      exact ⟨_, rfl, fun _ => (readsBack_stringMap limit description.metadata).refine _⟩

theorem nodup_members (limit : Nat) :
    ((description.members limit).map (·.name)).Nodup := by
  rw [members]
  cases description.bindMaterialAs <;> cases description.metadata <;> simp

theorem fits_members (limit : Nat) :
    (∀ member ∈ description.members limit, member.fits) ↔ limit ≠ 0 := by
  rw [members]
  cases description.bindMaterialAs <;> cases description.metadata <;> simp

theorem foldl_members (limit : Nat) (hsorted : Ascending description.metadata) :
    (description.members limit).foldl (fun record member => member.put record) {} =
      description := by
  obtain ⟨name, targets, bindMaterialAs, metadata⟩ := description
  have hsame : sortByKey metadata = metadata := sortByKey_of_ascending hsorted
  rw [members]
  cases bindMaterialAs <;> cases metadata <;> simp_all

/-- **A relationship is read back.** -/
theorem readsBack (limit : Nat) (hsorted : Ascending description.metadata) :
    ReadsBack (readRecord limit (fields (limit - 1)) {}) description.printer (2 ≤ limit)
      description := by
  have hrequired : ∀ field ∈ fields (limit - 1), field.required = true →
      field.name ∈ (description.members (limit - 1)).map (·.name) := by
    simp [fields, members, RecordField.mandatory, RecordField.optional]
  have hrecord := readsBack_record limit {} (isOf_fields (limit - 1)) (nodup_members _) hrequired
  rw [foldl_members _ hsorted, ← printer_eq_members] at hrecord
  refine hrecord.congr ?_
  rw [fits_members]
  omega

end RelationshipDescription

namespace CollectionDescription

/-- The members that a collection is printed with. -/
def members (limit : Nat) (description : CollectionDescription) :
    List (PrintedField CollectionDescription) :=
  [⟨"name", .string description.name, True,
    fun record => { record with name := description.name }⟩] ++
  (if description.includes.isEmpty then []
    else [⟨"includes", .list (description.includes.map .string), limit ≠ 0,
      fun record => { record with includes := description.includes }⟩]) ++
  (if description.excludes.isEmpty then []
    else [⟨"excludes", .list (description.excludes.map .string), limit ≠ 0,
      fun record => { record with excludes := description.excludes }⟩]) ++
  description.expansionRule.toList.map (fun token => ⟨"expansionRule", .string token, True,
    fun record => { record with expansionRule := some token }⟩) ++
  [⟨"includeRoot", .bool description.includeRoot, True,
    fun record => { record with includeRoot := description.includeRoot }⟩]

variable {description : CollectionDescription}

theorem printer_eq_members (limit : Nat) :
    description.printer =
      .object ((description.members limit).map fun member => (member.name, member.printer)) := by
  rw [printer, members]
  cases description.includes <;> cases description.excludes <;>
    cases description.expansionRule <;> rfl

theorem isOf_fields (limit : Nat) :
    ∀ member ∈ description.members limit, member.IsOf (fields limit) := by
  refine List.forall_mem_append.mpr ⟨List.forall_mem_append.mpr ⟨List.forall_mem_append.mpr
    ⟨List.forall_mem_append.mpr ⟨?_, ?_⟩, ?_⟩, ?_⟩, ?_⟩
  · refine List.forall_mem_singleton.mpr ?_
    exact ⟨_, rfl, fun _ => (readsBack_string description.name).refine _⟩
  · split
    · nofun
    · refine List.forall_mem_singleton.mpr ?_
      exact ⟨_, rfl, fun _ => (readsBack_strings limit description.includes).refine _⟩
  · split
    · nofun
    · refine List.forall_mem_singleton.mpr ?_
      exact ⟨_, rfl, fun _ => (readsBack_strings limit description.excludes).refine _⟩
  · intro member hmem
    obtain ⟨token, _, rfl⟩ := List.mem_map.mp hmem
    exact ⟨_, rfl, fun _ => (readsBack_someString token).refine _⟩
  · refine List.forall_mem_singleton.mpr ?_
    exact ⟨_, rfl, fun _ => (readsBack_bool description.includeRoot).refine _⟩

theorem nodup_members (limit : Nat) : ((description.members limit).map (·.name)).Nodup := by
  rw [members]
  cases description.includes <;> cases description.excludes <;>
    cases description.expansionRule <;> simp

theorem fits_members (limit : Nat) :
    (∀ member ∈ description.members limit, member.fits) ↔ description.nesting ≤ limit + 1 := by
  rw [members, nesting]
  cases description.includes <;> cases description.excludes <;>
    cases description.expansionRule <;> simp <;> omega

theorem foldl_members (limit : Nat) :
    (description.members limit).foldl (fun record member => member.put record) {} =
      description := by
  obtain ⟨name, includes, excludes, expansionRule, includeRoot⟩ := description
  rw [members]
  cases includes <;> cases excludes <;> cases expansionRule <;> simp

/-- **A collection is read back.** -/
theorem readsBack (limit : Nat) (description : CollectionDescription) :
    ReadsBack (readRecord limit (fields (limit - 1)) {}) description.printer
      (description.nesting ≤ limit) description := by
  have hrequired : ∀ field ∈ fields (limit - 1), field.required = true →
      field.name ∈ (description.members (limit - 1)).map (·.name) := by
    simp [fields, members, RecordField.mandatory, RecordField.optional]
  have hrecord := readsBack_record limit {} (isOf_fields (limit - 1)) (nodup_members _) hrequired
  rw [foldl_members, ← printer_eq_members] at hrecord
  refine hrecord.congr ?_
  have hpositive : 1 ≤ description.nesting := by
    rw [nesting]
    split <;> omega
  rw [fits_members]
  omega

end CollectionDescription

/-! ## Prims -/

namespace Description

variable {prim : PrimDescription} {children : Description}

/-- **The relationships of a prim are read back** if three brackets fit into the limit. -/
theorem readsBack_relationships (limit : Nat) {relationships : List RelationshipDescription}
    (hnonempty : relationships ≠ [])
    (hsorted : ∀ relationship ∈ relationships, Ascending relationship.metadata) :
    ReadsBack
      (readList limit (readRecord (limit - 1) (RelationshipDescription.fields (limit - 2)) {}))
      (.list (relationships.map (·.printer))) (3 ≤ limit) relationships := by
  have hlist := readsBack_list limit fun relationship hmem =>
    RelationshipDescription.readsBack (limit - 1) (hsorted relationship hmem)
  rw [List.map_id'] at hlist
  refine hlist.congr ⟨fun ⟨_, hall⟩ => ?_, fun hlimit => ⟨?_, fun _ _ => ?_⟩⟩
  · obtain ⟨relationship, hmem⟩ := List.exists_mem_of_ne_nil _ hnonempty
    have hthis := hall relationship hmem
    omega
  · omega
  · omega

/-- **The collections of a prim are read back**, if the deepest of them fits into the limit. -/
theorem readsBack_collections (limit : Nat) {collections : List CollectionDescription}
    (hnonempty : collections ≠ []) :
    ReadsBack
      (readList limit (readRecord (limit - 1) (CollectionDescription.fields (limit - 2)) {}))
      (.list (collections.map (·.printer)))
      (deepest (collections.map fun collection => 1 + collection.nesting) ≤ limit)
      collections := by
  have hlist := readsBack_list limit fun collection (_ : collection ∈ collections) =>
    CollectionDescription.readsBack (limit - 1) collection
  rw [List.map_id'] at hlist
  refine hlist.congr ?_
  rw [deepest_le_iff, List.forall_mem_map]
  constructor
  · intro hboth collection hmem
    obtain ⟨hlimit, hall⟩ := hboth
    have hthis := hall collection hmem
    omega
  · intro hall
    obtain ⟨collection, hmem⟩ := List.exists_mem_of_ne_nil _ hnonempty
    refine ⟨?_, fun other hother => ?_⟩
    · have hthis := hall collection hmem
      omega
    · have hthis := hall other hother
      omega

/-- **Prims are read back** if each of them is. -/
theorem readsBack_prims (limit : Nat) {child : Reader (PrimDescription × Description)}
    {description : Description} (hnonempty : description ≠ .nil)
    (hchild : ∀ one ∈ description.toList, ReadsBack child (primPrinter one.1 one.2.printers)
      (2 + max one.1.nesting one.2.nesting ≤ limit) one) :
    ReadsBack (readList limit child) (.list description.printers) (description.nesting ≤ limit)
      description.toList := by
  have hlist := readsBack_list limit hchild
  rw [List.map_id', ← printers_eq_map] at hlist
  refine hlist.congr ?_
  rw [nesting_le_iff]
  refine ⟨fun h => h.2, fun hall => ⟨?_, hall⟩⟩
  cases description with
  | nil => exact absurd rfl hnonempty
  | cons prim children rest =>
      have hthis := hall _ (List.mem_cons_self ..)
      omega

/-- What holds of a member that may be left out holds of all that is printed in its place. -/
theorem forall_mem_unless {ρ : Type} {holds : PrintedField ρ → Prop} {absent : Prop}
    [Decidable absent] {member : PrintedField ρ} (hmember : ¬ absent → holds member) :
    ∀ printed ∈ (if absent then [] else [member]), holds printed := by
  by_cases habsent : absent
  · rw [if_pos habsent]
    exact List.forall_mem_nil _
  · rw [if_neg habsent]
    exact List.forall_mem_singleton.mpr (hmember habsent)

/-- The members that a prim is printed with. -/
def members (limit : Nat) (prim : PrimDescription) (children : Description) :
    List (PrintedField (PrimDescription × Description)) :=
  [⟨"name", .string prim.name, True,
    fun record => ({ record.1 with name := prim.name }, record.2)⟩] ++
  (if prim.relationships.isEmpty then []
    else [⟨"relationships", .list (prim.relationships.map (·.printer)), 3 ≤ limit,
      fun record => ({ record.1 with relationships := prim.relationships }, record.2)⟩]) ++
  (if prim.collections.isEmpty then []
    else [⟨"collections", .list (prim.collections.map (·.printer)),
      deepest (prim.collections.map fun collection => 1 + collection.nesting) ≤ limit,
      fun record => ({ record.1 with collections := prim.collections }, record.2)⟩]) ++
  (if children.printers.isEmpty then []
    else [⟨"children", .list children.printers, children.nesting ≤ limit,
      fun record => (record.1, ofList children.toList)⟩])

/-- A prim is printed as the object of its members. -/
theorem primPrinter_eq_members (limit : Nat) :
    primPrinter prim children.printers =
      .object ((members limit prim children).map fun member => (member.name, member.printer)) := by
  rw [primPrinter, members]
  cases prim.relationships <;> cases prim.collections <;> cases children.printers <;> rfl

/-- Each member of a prim is read back by the field of its name. -/
theorem isOf_primFields (limit : Nat) {child : Reader (PrimDescription × Description)}
    (hsorted : ∀ relationship ∈ prim.relationships, Ascending relationship.metadata)
    (hchild : ∀ one ∈ children.toList, ReadsBack child (primPrinter one.1 one.2.printers)
      (2 + max one.1.nesting one.2.nesting ≤ limit) one) :
    ∀ member ∈ members limit prim children, member.IsOf (primFields limit child) := by
  refine List.forall_mem_append.mpr ⟨List.forall_mem_append.mpr ⟨List.forall_mem_append.mpr
    ⟨?name, ?relationships⟩, ?collections⟩, ?children⟩
  case name =>
    refine List.forall_mem_singleton.mpr ?_
    exact ⟨_, rfl, fun _ => (readsBack_string prim.name).refine _⟩
  case relationships =>
    refine forall_mem_unless fun hnonempty => ?_
    rw [List.isEmpty_iff] at hnonempty
    exact ⟨_, rfl, fun _ => (readsBack_relationships limit hnonempty hsorted).refine _⟩
  case collections =>
    refine forall_mem_unless fun hnonempty => ?_
    rw [List.isEmpty_iff] at hnonempty
    exact ⟨_, rfl, fun _ => (readsBack_collections limit hnonempty).refine _⟩
  case children =>
    refine forall_mem_unless fun hnonempty => ?_
    have hchildren : children ≠ .nil := by
      intro heq
      subst heq
      exact hnonempty rfl
    exact ⟨_, rfl, fun _ => (readsBack_prims limit hchildren hchild).refine _⟩

theorem nodup_members (limit : Nat) : ((members limit prim children).map (·.name)).Nodup := by
  rw [members]
  cases prim.relationships <;> cases prim.collections <;> cases children.printers <;> simp

theorem fits_members (limit : Nat) :
    (∀ member ∈ members limit prim children, member.fits) ↔
      max prim.nesting children.nesting ≤ limit := by
  have hchildren : children.printers = [] → children.nesting = 0 := by
    intro hnone
    cases children with
    | nil => rfl
    | cons prim below rest => exact absurd hnone nofun
  rw [members, PrimDescription.nesting]
  cases prim.relationships <;> cases prim.collections <;> cases hprinters : children.printers <;>
    simp_all [deepest] <;> omega

theorem foldl_members (limit : Nat) :
    (members limit prim children).foldl (fun record member => member.put record) ({}, .nil) =
      (prim, children) := by
  obtain ⟨name, relationships, collections⟩ := prim
  rw [members, ofList_toList]
  cases relationships <;> cases collections <;> cases children <;> simp [printers]

/-- A prim is read back, if its children are. -/
theorem readsBack_record_prim (bracket limit : Nat) {child : Reader (PrimDescription × Description)}
    (hsorted : ∀ relationship ∈ prim.relationships, Ascending relationship.metadata)
    (hchild : ∀ one ∈ children.toList, ReadsBack child (primPrinter one.1 one.2.printers)
      (2 + max one.1.nesting one.2.nesting ≤ limit) one) :
    ReadsBack (readRecord bracket (primFields limit child) ({}, .nil))
      (primPrinter prim children.printers)
      (bracket ≠ 0 ∧ max prim.nesting children.nesting ≤ limit) (prim, children) := by
  have hrequired : ∀ field ∈ primFields limit child, field.required = true →
      field.name ∈ (members limit prim children).map (·.name) := by
    simp [primFields, members, RecordField.mandatory, RecordField.optional]
  have hrecord := readsBack_record bracket ({}, .nil) (isOf_primFields limit hsorted hchild)
    (nodup_members limit) hrequired
  rw [foldl_members, ← primPrinter_eq_members] at hrecord
  refine hrecord.congr ?_
  rw [fits_members]

/-- Without a bracket left no child is read. -/
theorem readsBack_noChild (one : PrimDescription × Description) :
    ReadsBack (fun _ => .error .malformed) (primPrinter one.1 one.2.printers)
      (2 + max one.1.nesting one.2.nesting ≤ 0) one where
  opens := opens_object _
  limited := fun _ _ _ _ => ⟨fun hfits => absurd hfits (by omega), fun _ => rfl⟩

/-- **A prim is read back** with everything below it, one level of prims for every two brackets. -/
theorem readsBack_readPrim (limit : Nat)
    (hsorted : ∀ relationship ∈ prim.relationships, Ascending relationship.metadata)
    (hchildren : children.Arranged) :
    ReadsBack (readPrim limit) (primPrinter prim children.printers)
      (1 + max prim.nesting children.nesting ≤ limit) (prim, children) := by
  induction limit using readPrim.induct generalizing prim children with
  | case1 =>
      refine (readsBack_record_prim 0 0 hsorted fun one _ => readsBack_noChild one).congr ?_
      omega
  | case2 =>
      refine (readsBack_record_prim 1 0 hsorted fun one _ => readsBack_noChild one).congr ?_
      omega
  | case3 limit ih =>
      have hchild : ∀ one ∈ children.toList, ReadsBack (readPrim limit)
          (primPrinter one.1 one.2.printers)
          (2 + max one.1.nesting one.2.nesting ≤ limit + 1) one := by
        intro one hmem
        obtain ⟨hone, hbelow⟩ := hchildren.of_mem hmem
        refine (ih hone hbelow).congr ?_
        omega
      refine (readsBack_record_prim (limit + 2) (limit + 1) hsorted hchild).congr ?_
      omega

/-! ## Scenes -/

/-- The members that a scene is printed with. -/
def sceneMembers (description : Description) : List (PrintedField Description) :=
  if description.printers.isEmpty then []
  else [⟨"prims", .list description.printers, description.nesting ≤ nestingLimit - 1,
    fun _ => ofList description.toList⟩]

/-- A scene is printed as the object of its members. -/
theorem printer_eq_sceneMembers (description : Description) :
    description.printer =
      .object (description.sceneMembers.map fun member => (member.name, member.printer)) := by
  rw [printer, sceneMembers]
  cases description.printers <;> rfl

/-- **A scene is read back**, if its brackets fit into the limit. -/
theorem readsBack_scene {description : Description} (hsorted : description.Arranged) :
    ReadsBack reader description.printer (1 + description.nesting ≤ nestingLimit)
      description := by
  have hchild : ∀ one ∈ description.toList, ReadsBack (readPrim (nestingLimit - 2))
      (primPrinter one.1 one.2.printers)
      (2 + max one.1.nesting one.2.nesting ≤ nestingLimit - 1) one := by
    intro one hmem
    obtain ⟨hone, hbelow⟩ := hsorted.of_mem hmem
    refine (readsBack_readPrim (nestingLimit - 2) hone hbelow).congr ?_
    rw [nestingLimit]
    omega
  have hfields : ∀ member ∈ description.sceneMembers, member.IsOf
      [.optional "prims" (readList (nestingLimit - 1) (readPrim (nestingLimit - 2)))
        fun _ prims => ofList prims] := by
    rw [sceneMembers]
    refine forall_mem_unless fun hnonempty => ?_
    have hprims : description ≠ .nil := by
      intro heq
      subst heq
      exact hnonempty rfl
    exact ⟨_, rfl, fun _ => (readsBack_prims _ hprims hchild).refine _⟩
  have hnodup : (description.sceneMembers.map (·.name)).Nodup := by
    rw [sceneMembers]
    split <;> simp
  have hrecord := readsBack_record nestingLimit .nil hfields hnodup (by simp [RecordField.optional])
  rw [← printer_eq_sceneMembers] at hrecord
  have hresult : description.sceneMembers.foldl (fun record member => member.put record) .nil =
      description := by
    rw [sceneMembers, ofList_toList]
    cases description <;> rfl
  rw [hresult] at hrecord
  refine hrecord.congr ?_
  rw [sceneMembers, nestingLimit]
  cases description with
  | nil => simp [printers, nesting]
  | cons prim children rest => simp [printers]; omega

/-- A page is read back to its end. -/
theorem readText_page {description : Description} (hsorted : description.Arranged) :
    readText reader description.printer.page =
      if 1 + description.nesting ≤ nestingLimit then .ok description else .error .malformed := by
  have htext : description.printer.page.toList =
      [] ++ (description.printer (.indented 0) ++ []) := by
    rw [Printer.page, String.toList_ofList]
    simp
  obtain ⟨hreads, hrefuses⟩ :=
    (readsBack_scene hsorted).limited (.indented 0) [] [] blankText_nil
  rw [readText, htext]
  by_cases hfits : 1 + description.nesting ≤ nestingLimit
  · rw [if_pos hfits, hreads hfits]
    rfl
  · rw [if_neg hfits, hrefuses hfits]

end Description

end MaterialBinding
